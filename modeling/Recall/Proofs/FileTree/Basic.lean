/-
Recall.Proofs.FileTree.Basic — looking into a tree of files that was changed.

What stands at names is known after a change (`get?_put_self`, `get?_put_of_ne` and the same for
`erase`), and each operation comes to one change at the names where its path leads, under conditions
that `makeFolder_eq_ok_iff`, `write_eq_ok_iff` and `move_eq_ok_iff` state in full. Where a path leads
depends on the folders of the tree alone. So it leads there still when no folder is gone
(`locate_mono`), and a file that was written or moved is read at the path it was given (`read_write`,
`read_move`). A file that is all that is new in a tree can be taken away again (`FileAdded.remove_eq`).
-/
import Recall.FileTree.Basic

namespace Recall

namespace FileTree

variable {t t' : FileTree} {names other : List String} {item : Item} {p : Path}

/-! ## 1. What stands at names -/

@[simp] theorem get?_nil (t : FileTree) : t.get? [] = some .folder := rfl

theorem get?_of_ne (h : names ≠ []) :
    t.get? names = (t.entries.find? fun e => e.1 == names).map Prod.snd := by
  rw [get?, if_neg (by simpa using h)]

theorem get?_eq_none_iff (h : names ≠ []) : t.get? names = none ↔ ∀ e ∈ t.entries, e.1 ≠ names := by
  simp [get?_of_ne h]

theorem get?_erase_of_ne (h : other ≠ names) : (t.erase names).get? other = t.get? other := by
  by_cases hother : other = []
  · rw [hother, get?_nil, get?_nil]
  · rw [get?_of_ne hother, get?_of_ne hother, erase, List.find?_filter]
    congr 2
    funext e
    by_cases he : e.1 = other <;> simp [he, h]

theorem get?_put_self (h : names ≠ []) (item : Item) : (t.put names item).get? names = some item := by
  have hnone : (t.erase names).entries.find? (fun e => e.1 == names) = none := by
    simp [erase]
  rw [get?_of_ne h, put, List.find?_append, hnone]
  simp

theorem get?_put_of_ne (h : other ≠ names) (item : Item) :
    (t.put names item).get? other = t.get? other := by
  by_cases hother : other = []
  · rw [hother, get?_nil, get?_nil]
  · have hlast : ([(names, item)].find? fun e => e.1 == other) = none := by
      simpa using fun heq => h heq.symm
    rw [get?_of_ne hother, put, List.find?_append, hlast, Option.or_none, ← get?_of_ne hother,
      get?_erase_of_ne h]

/-- What was put where nothing stood can be taken away again. -/
theorem erase_put (hne : names ≠ []) (h : t.get? names = none) (item : Item) :
    (t.put names item).erase names = t := by
  have hall : t.entries.filter (fun e => e.1 != names) = t.entries := by
    refine List.filter_eq_self.mpr fun e he => ?_
    simpa using (get?_eq_none_iff hne).mp h e he
  obtain ⟨entries⟩ := t
  simp only [put, erase] at hall ⊢
  simp [hall]

/-- Of two things put at the same place the last stays. -/
theorem put_put (t : FileTree) (names : List String) (item item' : Item) :
    (t.put names item).put names item' = t.put names item' := by
  simp [put, erase, List.filter_filter]

/-! ## 2. Where a path leads -/

/-- Where names lead from a folder if they lead anywhere, which is known without the tree. -/
def resolve (done : List String) (names : List String) : List String :=
  names.foldl (fun done n => if n = ".." then done.dropLast else done ++ [n]) done

theorem resolve_of_not_mem (h : ".." ∉ names) (done : List String) :
    resolve done names = done ++ names := by
  induction names generalizing done with
  | nil => exact (List.append_nil done).symm
  | cons n r ih =>
    rw [List.mem_cons, not_or] at h
    rw [resolve, List.foldl_cons, if_neg fun heq => h.1 heq.symm, ← resolve, ih h.2]
    simp

theorem eq_resolve_of_locateFrom {done r : List String} (h : t.locateFrom done names = .ok r) :
    r = resolve done names := by
  induction names generalizing done with
  | nil => exact (Except.ok.inj h).symm
  | cons n rest ih =>
    rw [locateFrom] at h
    split at h
    · exact ih h
    · cases h
    · cases h

theorem eq_resolve_of_locate (h : t.locate p = .ok names) : names = resolve [] p.names := by
  rw [locate] at h
  split at h
  · cases h
  · exact eq_resolve_of_locateFrom h

/-- The names in front must lead to a folder, and the last is a name in it or leads out of it. -/
theorem locateFrom_concat (done : List String) (n : String) {r : List String} :
    t.locateFrom done (names ++ [n]) = .ok r ↔ ∃ d, t.locateFrom done names = .ok d ∧
      t.get? d = some .folder ∧ r = if n = ".." then d.dropLast else d ++ [n] := by
  induction names generalizing done with
  | nil =>
    simp only [List.nil_append, locateFrom]
    cases hdone : t.get? done with
    | none => simp [hdone]
    | some item => cases item <;> simp [hdone, eq_comm]
  | cons m rest ih =>
    simp only [List.cons_append, locateFrom]
    cases t.get? done with
    | none => simp
    | some item =>
      cases item with
      | folder => exact ih _
      | file bytes => simp

theorem locate_child {n : String} (h : n ≠ "..") : t.locate (p.child n) = .ok names ↔
    ∃ d, t.locate p = .ok d ∧ t.get? d = some .folder ∧ names = d ++ [n] := by
  rw [locate, locate]
  by_cases hp : p.absolute = true
  · rw [if_pos hp, if_pos (show (p.child n).absolute = true from hp)]
    simp
  · rw [if_neg hp, if_neg (show ¬ (p.child n).absolute = true from hp)]
    show t.locateFrom [] (p.names ++ [n]) = .ok names ↔ _
    simpa only [if_neg h] using locateFrom_concat [] n

/-- A path that leads somewhere leads there still when no folder is gone. -/
theorem locateFrom_mono (hfolders : ∀ names, t.get? names = some .folder →
    t'.get? names = some .folder) {done r : List String} (h : t.locateFrom done names = .ok r) :
    t'.locateFrom done names = .ok r := by
  induction names generalizing done with
  | nil => exact h
  | cons n rest ih =>
    rw [locateFrom] at h ⊢
    split at h
    · rename_i hfolder
      rw [hfolders _ hfolder]
      exact ih h
    · cases h
    · cases h

theorem locate_mono (hfolders : ∀ names, t.get? names = some .folder →
    t'.get? names = some .folder) (h : t.locate p = .ok names) : t'.locate p = .ok names := by
  rw [locate] at h ⊢
  split at h
  · cases h
  · rename_i hrelative
    rw [if_neg hrelative]
    exact locateFrom_mono hfolders h

/-! ## 3. What operations come to -/

theorem bind_eq_ok_iff {α β ε : Type} {x : Except ε α} {f : α → Except ε β} {b : β} :
    (x >>= f) = .ok b ↔ ∃ a, x = .ok a ∧ f a = .ok b := by
  cases x with
  | error e => simp [bind, Except.bind]
  | ok a => simp [bind, Except.bind]

theorem find_eq_ok_iff : t.find p = .ok item ↔ ∃ names, t.locate p = .ok names ∧
    t.get? names = some item := by
  rw [find, bind_eq_ok_iff]
  refine exists_congr fun names => and_congr_right fun _ => ?_
  cases t.get? names with
  | none => simp
  | some i => simp [pure, Except.pure]

theorem read_eq_ok_iff {bytes : List UInt8} : t.read p = .ok bytes ↔ ∃ names,
    t.locate p = .ok names ∧ t.get? names = some (.file bytes) := by
  rw [← find_eq_ok_iff, read, bind_eq_ok_iff]
  constructor
  · rintro ⟨item, hitem, h⟩
    cases item with
    | folder => cases h
    | file b => rwa [← Except.ok.inj h]
  · intro h
    exact ⟨.file bytes, h, rfl⟩

theorem makeFolder_eq_ok_iff : t.makeFolder p = .ok t' ↔ ∃ names, t.locate p = .ok names ∧
    t.get? names = none ∧ t' = t.put names .folder := by
  rw [makeFolder, bind_eq_ok_iff]
  refine exists_congr fun names => and_congr_right fun _ => ?_
  cases t.get? names with
  | none => simp [pure, Except.pure, eq_comm]
  | some i => simp

theorem write_eq_ok_iff {bytes : List UInt8} : t.write p bytes = .ok t' ↔ ∃ names,
    t.locate p = .ok names ∧ t.get? names ≠ some .folder ∧ t' = t.put names (.file bytes) := by
  rw [write, bind_eq_ok_iff]
  refine exists_congr fun names => and_congr_right fun _ => ?_
  cases t.get? names with
  | none => simp [pure, Except.pure, eq_comm]
  | some i => cases i <;> simp [pure, Except.pure, eq_comm]

theorem move_eq_ok_iff {source target : Path} : t.move source target = .ok t' ↔
    ∃ bytes old new, t.locate source = .ok old ∧ t.get? old = some (.file bytes) ∧
      t.locate target = .ok new ∧ t.get? new ≠ some .folder ∧
      t' = (t.erase old).put new (.file bytes) := by
  rw [move, bind_eq_ok_iff]
  constructor
  · rintro ⟨bytes, hread, h⟩
    obtain ⟨old, hold, hbytes⟩ := read_eq_ok_iff.mp hread
    obtain ⟨old', hold', h⟩ := bind_eq_ok_iff.mp h
    obtain ⟨new, hnew, h⟩ := bind_eq_ok_iff.mp h
    obtain rfl := Except.ok.inj (hold.symm.trans hold')
    refine ⟨bytes, old, new, hold, hbytes, hnew, ?_⟩
    split at h
    · cases h
    · rename_i hfolder
      exact ⟨hfolder, (Except.ok.inj h).symm⟩
  · rintro ⟨bytes, old, new, hold, hbytes, hnew, hfolder, rfl⟩
    refine ⟨bytes, read_eq_ok_iff.mpr ⟨old, hold, hbytes⟩, ?_⟩
    refine bind_eq_ok_iff.mpr ⟨old, hold, bind_eq_ok_iff.mpr ⟨new, hnew, ?_⟩⟩
    split
    · exact absurd ‹_› hfolder
    · rfl

/-! ## 4. Reading what was written -/

/-- A file that was put where no folder stands takes no folder away. -/
theorem folder_put (h : t.get? names ≠ some .folder) (bytes : List UInt8)
    (hother : t.get? other = some .folder) : (t.put names (.file bytes)).get? other = some .folder := by
  have hne : other ≠ names := by
    rintro rfl
    exact h hother
  rw [get?_put_of_ne hne, hother]

theorem ne_nil_of_not_folder (h : t.get? names ≠ some .folder) : names ≠ [] := by
  rintro rfl
  exact h rfl

theorem read_write {bytes : List UInt8} (h : t.write p bytes = .ok t') : t'.read p = .ok bytes := by
  obtain ⟨names, hlocate, hfolder, rfl⟩ := write_eq_ok_iff.mp h
  refine read_eq_ok_iff.mpr ⟨names, ?_, get?_put_self (ne_nil_of_not_folder hfolder) _⟩
  exact locate_mono (fun _ => folder_put hfolder bytes) hlocate

theorem read_move {source target : Path} {bytes : List UInt8} (h : t.move source target = .ok t')
    (hread : t.read source = .ok bytes) : t'.read target = .ok bytes := by
  obtain ⟨bytes', old, new, hold, hbytes, hnew, hfolder, rfl⟩ := move_eq_ok_iff.mp h
  obtain ⟨old', hold', hbytes'⟩ := read_eq_ok_iff.mp hread
  obtain rfl := Except.ok.inj (hold.symm.trans hold')
  obtain rfl := Item.file.inj (Option.some.inj (hbytes.symm.trans hbytes'))
  have hmoved : ∀ other, t.get? other = some .folder →
      ((t.erase old).put new (.file bytes')).get? other = some .folder := by
    intro other hother
    have hne : other ≠ old := by
      rintro rfl
      rw [hbytes] at hother
      cases hother
    have hnew : other ≠ new := by
      rintro rfl
      exact hfolder hother
    rw [get?_put_of_ne hnew, get?_erase_of_ne hne, hother]
  refine read_eq_ok_iff.mpr ⟨new, locate_mono hmoved hnew, ?_⟩
  exact get?_put_self (ne_nil_of_not_folder hfolder) _

/-! ## 5. A file where nothing stood -/

/-- Nothing happened to a tree but that a file came to stand at a path where nothing stood. -/
def FileAdded (p : Path) (before after : FileTree) : Prop :=
  ∃ names bytes, before.locate p = .ok names ∧ before.get? names = none ∧
    after = before.put names (.file bytes)

theorem not_folder_of_free (h : t.get? names = none) : t.get? names ≠ some .folder := by
  rw [h]
  exact nofun

theorem fileAdded_write {bytes : List UInt8} (h : t.write p bytes = .ok t')
    (hfree : ∀ names, t.locate p = .ok names → t.get? names = none) : FileAdded p t t' := by
  obtain ⟨names, hlocate, -, rfl⟩ := write_eq_ok_iff.mp h
  exact ⟨names, bytes, hlocate, hfree names hlocate, rfl⟩

namespace FileAdded

variable (h : FileAdded p t t')
include h

/-- The path leads where it did. -/
theorem locate_eq (hlocate : t'.locate p = .ok names) : t.locate p = .ok names := by
  obtain ⟨own, bytes, hown, hfree, rfl⟩ := h
  have hown' := locate_mono (fun _ => folder_put (not_folder_of_free hfree) bytes) hown
  rw [hown, ← hown', hlocate]

/-- Writing to the file again makes no difference but to what is in it. -/
theorem write {bytes : List UInt8} {t'' : FileTree} (hwrite : t'.write p bytes = .ok t'') :
    FileAdded p t t'' := by
  obtain ⟨names, hlocate, -, rfl⟩ := write_eq_ok_iff.mp hwrite
  have hlocate' := h.locate_eq hlocate
  obtain ⟨own, old, hown, hfree, rfl⟩ := h
  obtain rfl := Except.ok.inj (hown.symm.trans hlocate')
  exact ⟨own, bytes, hown, hfree, put_put t own _ _⟩

/-- Without the file the tree is as it was. -/
theorem remove_eq : t'.remove p = t := by
  obtain ⟨names, bytes, hlocate, hfree, rfl⟩ := h
  have hfolder := not_folder_of_free hfree
  rw [remove, locate_mono (fun _ => folder_put hfolder bytes) hlocate]
  exact erase_put (ne_nil_of_not_folder hfolder) hfree _

/-- What was found at a path is found there still. -/
theorem find {q : Path} (hitem : t.find q = .ok item) : t'.find q = .ok item := by
  obtain ⟨names, bytes, hlocate, hfree, rfl⟩ := h
  obtain ⟨own, hown, hget⟩ := find_eq_ok_iff.mp hitem
  have hne : own ≠ names := by
    rintro rfl
    rw [hfree] at hget
    cases hget
  refine find_eq_ok_iff.mpr ⟨own, ?_, by rw [get?_put_of_ne hne, hget]⟩
  exact locate_mono (fun _ => folder_put (not_folder_of_free hfree) bytes) hown

/-- The file is found at its path. -/
theorem exists_find : ∃ bytes, t'.find p = .ok (.file bytes) := by
  obtain ⟨names, bytes, hlocate, hfree, rfl⟩ := h
  have hfolder := not_folder_of_free hfree
  exact ⟨bytes, find_eq_ok_iff.mpr ⟨names, locate_mono (fun _ => folder_put hfolder bytes) hlocate,
    get?_put_self (ne_nil_of_not_folder hfolder) _⟩⟩

end FileAdded

end FileTree

end Recall
