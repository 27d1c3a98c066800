/-
Recall.Proofs.Settings.Save — saving settings, all or nothing.

The new file is made where nothing stood (`locate_newPath`): among one more name than the tree has
paths one is free. Until it is moved it is all that is new besides folders on the way to the target,
however far writing it has come (`fill_eq_error`). So whatever fails, what is left of saving are these
folders, and the new file only if removing it fails (`save_eq_error`). If nothing fails the file at the
target holds the text (`save_eq_ok`), which loads as the settings.

Where the folder is there and no step fails for reasons of its own, settings with a text are saved
(`save_returns`).
-/
import Mathlib.Data.List.Perm.Subperm
import Recall.Proofs.FileTree.Folder
import Recall.Proofs.Settings.Format

namespace Recall

namespace Settings

variable {ε : Type} {format : Codec ε} {m : Mishaps} {t t' : FileTree} {path : Path}

/-! ## 1. The new file -/

theorem newName_injective : Function.Injective newName := by
  intro m n h
  have hchars := List.append_cancel_right (String.ofList_injective h)
  rw [← Json.natOf_digits m, List.append_cancel_left hchars, Json.natOf_digits]

theorem newName_ne_dots (n : Nat) : newName n ≠ ".." := by
  intro h
  have htext : (newName n).toList = ".config_".toList ++ Chars.digits n ++ ".yaml.tmp".toList :=
    String.toList_ofList
  have hfront := (List.prefix_append ".config_".toList (Chars.digits n)).trans
    (List.prefix_append _ ".yaml.tmp".toList)
  rw [← htext, h] at hfront
  exact absurd hfront (by decide)

/-- A new name is free unless something stands there. -/
theorem find_newName {d : List String} (hparent : t.locate path.parent = .ok d)
    (hfolder : t.get? d = some .folder) (n : Nat) :
    (t.find (path.parent.child (newName n))).toOption = t.get? (d ++ [newName n]) := by
  have hlocate : t.locate (path.parent.child (newName n)) = .ok (d ++ [newName n]) :=
    (FileTree.locate_child (newName_ne_dots n)).mpr ⟨d, hparent, hfolder, rfl⟩
  cases hget : t.get? (d ++ [newName n]) with
  | some item =>
    rw [FileTree.find_eq_ok_iff.mpr ⟨_, hlocate, hget⟩]
    rfl
  | none =>
    rw [FileTree.find, hlocate]
    simp [hget, bind, Except.bind, Except.toOption]

/-- Of one more name than the tree has paths one is free. -/
theorem exists_free (t : FileTree) (d : List String) :
    ∃ n < t.entries.length + 1, t.get? (d ++ [newName n]) = none := by
  by_contra hnone
  have hall : ∀ n < t.entries.length + 1, ∃ e ∈ t.entries, e.1 = d ++ [newName n] := by
    intro n hn
    by_contra hmissing
    have hne : d ++ [newName n] ≠ [] := by simp
    exact hnone ⟨n, hn, (FileTree.get?_eq_none_iff hne).mpr fun e he heq => hmissing ⟨e, he, heq⟩⟩
  have hnodup : ((List.range (t.entries.length + 1)).map fun n => d ++ [newName n]).Nodup := by
    refine List.Nodup.map (fun m n heq => newName_injective ?_) List.nodup_range
    simpa using heq
  have hsub : ((List.range (t.entries.length + 1)).map fun n => d ++ [newName n]) ⊆
      t.entries.map Prod.fst := by
    intro names hnames
    obtain ⟨n, hn, rfl⟩ := List.mem_map.mp hnames
    obtain ⟨e, he, heq⟩ := hall n (List.mem_range.mp hn)
    exact List.mem_map.mpr ⟨e, he, heq⟩
  have hcount := (List.subperm_of_subset hnodup hsub).length_le
  rw [List.length_map, List.length_range, List.length_map] at hcount
  omega

/-- The new file is made in the target's folder, where nothing stands. -/
theorem locate_newPath {names : List String} (h : t.locate (newPath t path) = .ok names) :
    ∃ d n, t.locate path.parent = .ok d ∧ names = d ++ [newName n] ∧ t.get? names = none := by
  obtain ⟨d, hparent, hfolder, rfl⟩ := (FileTree.locate_child (newName_ne_dots _)).mp h
  refine ⟨d, _, hparent, rfl, ?_⟩
  have hfree : ∀ n, (t.find (path.parent.child (newName n))).toOption.isNone =
      (t.get? (d ++ [newName n])).isNone := fun n => by rw [find_newName hparent hfolder]
  rw [← Option.isNone_iff_eq_none, ← hfree]
  obtain ⟨n, hn, hget⟩ := exists_free t d
  have hsome : ((List.range (t.entries.length + 1)).find? fun n =>
      (t.find (path.parent.child (newName n))).toOption.isNone).isSome = true := by
    rw [List.find?_isSome]
    exact ⟨n, List.mem_range.mpr hn, by rw [hfree, hget]; rfl⟩
  obtain ⟨m, hm⟩ := Option.isSome_iff_exists.mp hsome
  have hget := List.find?_some hm
  rwa [hm]

theorem get?_newPath {names : List String} (h : t.locate (newPath t path) = .ok names) :
    t.get? names = none := by
  obtain ⟨-, -, -, -, hfree⟩ := locate_newPath h
  exact hfree

/-! ## 2. What saving comes to -/

theorem step_eq_ok_iff {st : SaveStep} {outcome : Except FileError FileTree} :
    step m st outcome = .ok t ↔ m.fails st = false ∧ outcome = .ok t := by
  unfold step
  cases m.fails st <;> cases outcome <;> simp [Except.mapError]

/-- Only folders on the way to the target are made before the new file is. -/
theorem foldersMade_prepare (m : Mishaps) (t : FileTree) (path : Path) :
    FileTree.FoldersMade (FileTree.OnWay path.parent.names) t (prepare m t path).1 := by
  have hmake : ∀ (t : FileTree) (p : Path) (t' : FileTree),
      step m (.folder p) (t.makeFolder p) = .ok t' → t.makeFolder p = .ok t' :=
    fun _ _ _ h => (step_eq_ok_iff.mp h).2
  have hmade := FileTree.foldersMade_settleUp hmake (· == .file .missing) t path.absolute
    path.parent.names.reverse
  rwa [List.reverse_reverse] at hmade

variable {new : Path} {members : List (String × Json)}

theorem fileAdded_stopped {made : FileTree} (h : FileTree.FileAdded new t made) :
    FileTree.FileAdded new t (stopped m made new) := by
  rw [stopped]
  cases hwrite : made.write new m.part with
  | ok t' => exact h.write hwrite
  | error e => exact h

/-- If the new file was not moved, it is still all that is new. -/
theorem fill_eq_error {made : FileTree} {e : SaveFault} (h : FileTree.FileAdded new t made)
    (hfill : fill format m made new path members = (t', .error e)) :
    FileTree.FileAdded new t t' := by
  rw [fill] at hfill
  split at hfill
  · obtain ⟨rfl, -⟩ := Prod.mk.inj hfill
    exact fileAdded_stopped h
  · split at hfill
    · obtain ⟨rfl, -⟩ := Prod.mk.inj hfill
      exact fileAdded_stopped h
    · rename_i t₁ hwrite
      split at hfill
      · obtain ⟨rfl, -⟩ := Prod.mk.inj hfill
        exact h.write (step_eq_ok_iff.mp hwrite).2
      · cases hfill

theorem fill_eq_ok (h : fill format m t new path members = (t', .ok ())) :
    ∃ cs, fileChars? format members = some cs ∧ t'.read path = .ok (bytesOf cs) := by
  rw [fill] at h
  split at h
  · cases h
  · rename_i cs htext
    split at h
    · cases h
    · rename_i t₁ hwrite
      have hread := FileTree.read_write (step_eq_ok_iff.mp hwrite).2
      split at h
      · cases h
      · rename_i t₂ hmove
        obtain rfl : t₂ = t' := congrArg Prod.fst h
        exact ⟨cs, htext, FileTree.read_move (step_eq_ok_iff.mp hmove).2 hread⟩

/-- The new file is gone, unless it cannot be removed. -/
theorem discard_fst {e : SaveFault} (h : FileTree.FileAdded new t t') :
    (discard m t' new e).1 = if m.fails .remove then t' else t := by
  obtain ⟨bytes, hfind⟩ := h.exists_find
  simp only [discard, hfind]
  split
  · rfl
  · exact h.remove_eq

/-- If members were not saved, only folders were made, and the new file stays only if removing it
fails. -/
theorem save_eq_error {e : SaveFault} (h : save format m t path members = (t', .error e)) :
    t' = (prepare m t path).1 ∨ m.fails .remove = true ∧
      FileTree.FileAdded (newPath (prepare m t path).1 path) (prepare m t path).1 t' := by
  rw [save] at h
  split at h
  · rename_i t₁ e₁ hprepare
    rw [hprepare]
    exact Or.inl (congrArg Prod.fst h).symm
  · rename_i t₁ hprepare
    rw [hprepare]
    simp only at h ⊢
    split at h
    · exact Or.inl (congrArg Prod.fst h).symm
    · rename_i made hcreate
      have hadded := FileTree.fileAdded_write (step_eq_ok_iff.mp hcreate).2 fun _ => get?_newPath
      split at h
      · rename_i t₂ e₂ hfill
        have hleft := fill_eq_error hadded hfill
        obtain ⟨rfl, -⟩ := Prod.mk.inj h
        rw [discard_fst hleft]
        cases hremove : m.fails .remove with
        | false => exact Or.inl rfl
        | true => exact Or.inr ⟨rfl, hleft⟩
      · cases h

/-- If members were saved, the file at the path holds their text. -/
theorem save_eq_ok (h : save format m t path members = (t', .ok ())) :
    ∃ cs, fileChars? format members = some cs ∧ t'.read path = .ok (bytesOf cs) := by
  rw [save] at h
  split at h
  · cases h
  · simp only at h
    split at h
    · cases h
    · split at h
      · cases h
      · rename_i t₂ hfill
        obtain rfl : t₂ = t' := congrArg Prod.fst h
        exact fill_eq_ok hfill

/-! ## 3. Progress -/

section Progress

variable (hm : ∀ st, m.fails st = false)
include hm

theorem step_never (st : SaveStep) {outcome : Except FileError FileTree} (h : outcome = .ok t) :
    step m st outcome = .ok t :=
  step_eq_ok_iff.mpr ⟨hm st, h⟩

/-- Nothing is made in front of a folder that is there. -/
theorem prepare_of_isFolder (h : t.isFolder path.parent = true) : prepare m t path = (t, .ok ()) := by
  have hoccupied : step m (.folder path.parent) (t.makeFolder path.parent) =
      .error (.file .occupied) := by
    rw [FileTree.makeFolder_of_isFolder h, step, hm]
    rfl
  exact FileTree.settleUp_of_isFolder h hoccupied rfl

/-- In a folder that is there members with a text are saved, unless a folder stands at the path. -/
theorem save_returns {cs : List Char} (htext : fileChars? format members = some cs)
    (hparent : t.isFolder path.parent = true) (hpath : t.isFolder path = false) :
    ∃ t', save format m t path members = (t', .ok ()) := by
  obtain ⟨new, hnewPath⟩ : ∃ new, newPath t path = new := ⟨_, rfl⟩
  have hfolder : new.parent = path.parent := by simp [← hnewPath, newPath, Path.parent, Path.child]
  have hnew : t.isFolder new = false := by
    rw [Bool.eq_false_iff, ne_eq, FileTree.isFolder_iff, FileTree.find_eq_ok_iff]
    rintro ⟨names, hlocate, hget⟩
    rw [get?_newPath (hnewPath ▸ hlocate)] at hget
    cases hget
  obtain ⟨made, hmade⟩ := FileTree.exists_write [] (hfolder ▸ hparent) hnew
  have hsame := FileTree.isFolder_write hmade
  obtain ⟨t₁, hwrite⟩ := FileTree.exists_write (bytesOf cs) (t := made) (p := new)
    ((hsame _).trans (hfolder ▸ hparent)) ((hsame new).trans hnew)
  have hsame' := FileTree.isFolder_write hwrite
  obtain ⟨t₂, hmove⟩ := FileTree.exists_move (FileTree.read_write hwrite) (p := path)
    ((hsame' _).trans ((hsame _).trans hparent)) ((hsame' path).trans ((hsame path).trans hpath))
  refine ⟨t₂, ?_⟩
  rw [save, prepare_of_isFolder hm hparent]
  simp only [hnewPath, step_never hm .create hmade, fill, htext, step_never hm .write hwrite,
    step_never hm .move hmove]

end Progress

/-! ## 4. All or nothing -/

/-- Any members give valid settings and valid settings come back from their members. In a format that
gives back the settings it wrote: if settings are saved they are what is loaded from the path. If they
are not, what was found at the path is found there still. Unless the new file cannot be removed, all
that may be new in the tree then are folders on the way to the path's folder: every file is one that
was there, so no new file is left, and at a path without dots there is exactly what was. -/
theorem save_lossless_or_nothing {ε : Type} {format : Codec ε} (hformat : format.ReadsBack) :
    (∀ members, (ofMembers members).Valid) ∧
    ∀ s : Settings, s.Valid →
      ofMembers s.members = s ∧
      ∀ (m : Mishaps) (t : FileTree) (path : Path) (t' : FileTree),
        (save format m t path s.members = (t', .ok ()) → load format t' path = .ok s) ∧
        ∀ e, save format m t path s.members = (t', .error e) →
          (∀ item, t.find path = .ok item → t'.find path = .ok item) ∧
          (m.fails .remove = false →
            (".." ∉ path.names → t'.get? path.names = t.get? path.names) ∧
            (∀ names bytes,
              t'.get? names = some (.file bytes) ↔ t.get? names = some (.file bytes)) ∧
            FileTree.FoldersMade (FileTree.OnWay path.parent.names) t t') := by
  refine ⟨valid_ofMembers, fun s hs => ⟨ofMembers_members hs, fun m t path t' => ⟨?_, ?_⟩⟩⟩
  · intro h
    obtain ⟨cs, htext, hread⟩ := save_eq_ok h
    exact load_of_read hformat hs htext hread
  · intro e h
    have hmade := foldersMade_prepare m t path
    constructor
    · intro item hitem
      have hprepared := hmade.find hitem
      rcases save_eq_error h with rfl | ⟨-, hadded⟩
      · exact hprepared
      · exact hadded.find hprepared
    · intro hremove
      rcases save_eq_error h with rfl | ⟨hstays, -⟩
      · exact ⟨hmade.get?_path, hmade.file_iff, hmade⟩
      · rw [hremove] at hstays
        cases hstays

/-- A tree with a settings file that has content. -/
def oldSettings : FileTree :=
  ⟨[(["config.yaml"], .file (bytesOf ['{', '}']))]⟩

/-- Settings that can be written. -/
def newest : Settings := { sortBy := "newest", limit := 50, recentLimit := 8 }

/-- Settings with a number that has one digit too many. -/
def endless : Settings := { topResults := ((10 ^ Chars.maxDigits : Nat) : Int) }

theorem not_fewDigits_endless : ¬ endless.FewDigits := by
  rintro ⟨-, htop⟩
  rw [endless, Int.natAbs_natCast] at htop
  exact absurd Chars.maxDigits_lt_length_digits (Nat.not_lt.mpr htop)

/-- In YAML settings that can be written take the place of the file, others leave it as it is, and no
other file beside it. -/
theorem save_lossless_or_nothing_over_file :
    (∃ t', save (yaml 2) {} oldSettings ⟨false, ["config.yaml"]⟩ newest.members = (t', .ok ()) ∧
      load (yaml 2) t' ⟨false, ["config.yaml"]⟩ = .ok newest) ∧
    ∃ t' e, save (yaml 2) {} oldSettings ⟨false, ["config.yaml"]⟩ endless.members =
        (t', .error e) ∧
      ∀ names bytes,
        t'.get? names = some (.file bytes) ↔ oldSettings.get? names = some (.file bytes) := by
  have hformat : (yaml 2).ReadsBack := readsBack_yaml (by decide)
  constructor
  · have hvalid : newest.Valid := by decide
    have hwritten : (fileChars? (yaml 2) newest.members).isSome = true :=
      (fileChars?_isSome_iff hvalid).mpr ⟨by decide, by decide⟩
    have hparent : oldSettings.isFolder (Path.mk false ["config.yaml"]).parent = true := by decide
    have hpath : oldSettings.isFolder ⟨false, ["config.yaml"]⟩ = false := by decide
    obtain ⟨cs, htext⟩ := Option.isSome_iff_exists.mp hwritten
    obtain ⟨t', hsave⟩ := save_returns (m := {}) (fun _ => rfl) htext hparent hpath
    exact ⟨t', hsave, (((save_lossless_or_nothing hformat).2 _ hvalid).2 _ _ _ t').1 hsave⟩
  · have hvalid : endless.Valid :=
      ⟨by decide, by decide, by decide, by decide, Int.natCast_pos.mpr (Nat.pow_pos (by decide))⟩
    cases hsave : save (yaml 2) {} oldSettings ⟨false, ["config.yaml"]⟩ endless.members with
    | mk t' outcome =>
      cases outcome with
      | ok u =>
        obtain ⟨cs, htext, -⟩ := save_eq_ok hsave
        have hsome : (fileChars? (yaml 2) endless.members).isSome = true := by
          rw [htext, Option.isSome_some]
        exact absurd ((fileChars?_isSome_iff hvalid).mp hsome) not_fewDigits_endless
      | error e =>
        have hsame := (((save_lossless_or_nothing hformat).2 endless hvalid).2 _ _ _ t').2 e hsave
        exact ⟨t', e, rfl, (hsame.2 rfl).2.1⟩

end Settings

end Recall
