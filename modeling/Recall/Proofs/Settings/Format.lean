/-
Recall.Proofs.Settings.Format — YAML gives back the settings that it wrote.

The keys of settings are bare words, and so are the words of their vocabularies; the numbers of valid
settings are positive. So the members of valid settings are a section that is read as it was written
(`readsBack_yaml`). There is a text if the two numbers that may be of any size are not too long to be
read again (`fileChars?_isSome_iff`).
-/
import Recall.Proofs.Settings.File
import Recall.Proofs.Yaml.Written
import Recall.Settings.Format

namespace Recall

namespace Yaml

instance (key : String) : Decidable (IsKey key) :=
  decidable_of_iff (IsBare key.toList ∧ key.toList.length ≤ 1024 ∧ plainTag key = Tag.str)
    ⟨fun h => ⟨h.1, h.2.1, h.2.2⟩, fun h => ⟨h.bare, h.short, h.text⟩⟩

instance (s : String) : Decidable (IsBareValue (.str s)) :=
  inferInstanceAs (Decidable (_ ∧ _))

end Yaml

namespace Settings

open Yaml

variable {s : Settings} {depth : Nat}

theorem isKey_section : IsKey "search" := by
  decide +kernel

theorem isKey_of_mem (s : Settings) : ∀ m ∈ s.members, IsKey m.1 := by
  have hkeys : ∀ key ∈ (default : Settings).members.map Prod.fst, IsKey key := by decide +kernel
  have hsame : s.members.map Prod.fst = (default : Settings).members.map Prod.fst := rfl
  exact fun m hm => hkeys m.1 (hsame ▸ List.mem_map_of_mem hm)

/-- Valid settings hold words of their vocabularies, which are bare, and positive numbers. -/
theorem isBareValue_of_mem (h : s.Valid) : ∀ m ∈ s.members, IsBareValue m.2 := by
  obtain ⟨hsort, hwindow, hlimit, hrecent, htop⟩ := h
  have hsorts : ∀ v ∈ Saved.sortOrders, IsBareValue (.str v) := by decide +kernel
  have hwindows : ∀ v ∈ Saved.windows, IsBareValue (.str v) := by decide +kernel
  have hlimits : ∀ n ∈ Saved.limits, 0 < n := by decide
  simp only [members, List.forall_mem_cons]
  exact ⟨hsorts _ hsort, hwindows _ hwindow, hlimits _ hlimit, trivial, hrecent, htop,
    List.forall_mem_nil _⟩

/-- YAML gives back settings, if a section with its members may be read at all. -/
theorem readsBack_yaml (hdepth : 2 ≤ depth) : (yaml depth).ReadsBack := by
  intro s h cs htext
  obtain ⟨hreturn, hread⟩ := read_of_write? hdepth isKey_section (isKey_of_mem s)
    (isBareValue_of_mem h) (nodup_members s) (List.cons_ne_nil _ _) htext
  exact ⟨hreturn, inOrder s.members, inOrder_perm s.members, hread⟩

/-- The numbers of settings that may be of any size have few enough digits to be read again. -/
def FewDigits (s : Settings) : Prop :=
  (Chars.digits s.recentLimit.natAbs).length ≤ Chars.maxDigits ∧
    (Chars.digits s.topResults.natAbs).length ≤ Chars.maxDigits

theorem fileChars?_yaml (depth : Nat) (members : List (String × Json)) :
    fileChars? (yaml depth) members = write? [("search", .obj members)] := rfl

theorem fileChars?_isSome_iff (h : s.Valid) :
    (fileChars? (yaml depth) s.members).isSome = true ↔ s.FewDigits := by
  have hne : s.members ≠ [] := List.cons_ne_nil _ _
  have hlimits : ∀ n ∈ Saved.limits, (Chars.digits n.natAbs).length ≤ Chars.maxDigits := by decide
  have hlimit : (Chars.digits s.limit.natAbs).length ≤ Chars.maxDigits := hlimits _ h.2.2.1
  rw [fileChars?_yaml, write?_section isKey_section (isKey_of_mem s) (isBareValue_of_mem h) hne,
    Option.isSome_ite]
  simp [members, Json.isWritable, hlimit, FewDigits]

end Settings

end Recall
