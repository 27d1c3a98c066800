/-
Recall.Proofs.Settings.File — settings in a file of any format.

A format is good for settings if it gives back what it wrote (`Codec.ReadsBack`): the members of valid
settings, perhaps in another order. Then a file that holds the text of valid settings loads as the
settings (`load_of_read`), since the order of members does not matter.
-/
import Recall.Proofs.Json.Encoding
import Recall.Proofs.Json.Member
import Recall.Proofs.Settings.Basic
import Recall.Settings.Save

namespace Recall

namespace Settings

variable {ε : Type}

/-- A format gives back the settings that it wrote. Its texts have no carriage returns, which would be
gone when the file is opened. -/
def Codec.ReadsBack (format : Codec ε) : Prop :=
  ∀ s : Settings, s.Valid → ∀ cs, fileChars? format s.members = some cs →
    '\r' ∉ cs ∧ ∃ ms, ms.Perm s.members ∧ format.read cs = .ok (.obj [("search", .obj ms)])

theorem nodup_members (s : Settings) : (s.members.map Prod.fst).Nodup := by
  show ((default : Settings).members.map Prod.fst).Nodup
  decide

theorem ofMembers_perm {s : Settings} (h : s.Valid) {ms : List (String × Json)}
    (hms : ms.Perm s.members) : ofMembers ms = s :=
  ofMembers_eq h fun key _ => Json.field_perm hms (nodup_members s) key

theorem plainBreaks_eq_self {cs : List Char} (h : '\r' ∉ cs) : plainBreaks cs = cs := by
  induction cs with
  | nil => rfl
  | cons c r ih =>
    rw [List.mem_cons, not_or] at h
    rw [plainBreaks, if_neg (Ne.symm h.1), ih h.2]
    exact fun _ heq => absurd heq.symm h.1

/-- A file that holds the text of valid settings loads as the settings. -/
theorem load_of_read {format : Codec ε} (hformat : format.ReadsBack) {s : Settings} (h : s.Valid)
    {t : FileTree} {path : Path} {cs : List Char} (htext : fileChars? format s.members = some cs)
    (hread : t.read path = .ok (bytesOf cs)) : load format t path = .ok s := by
  obtain ⟨hreturn, ms, hperm, hvalue⟩ := hformat s h cs htext
  have hbytes : Encoding.plainUtf8? (bytesOf cs) = some cs := Encoding.plainUtf8?_utf8 cs
  have hsection : section? [("search", .obj ms)] = some ms := by
    simp [section?, Json.lookup?]
  simp only [load, ofFile, hread, hbytes, ofChars, plainBreaks_eq_self hreturn, hvalue, ofValue,
    hsection, ofMembers_perm h hperm]

end Settings

end Recall
