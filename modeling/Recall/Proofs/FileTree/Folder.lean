/-
Recall.Proofs.FileTree.Folder — making the folders on the way to a path.

Whether or not all of them could be made, nothing else happens to the tree: everything that stood in
it stands there still, and what is new are folders at places to which a front part of the path leads
(`foldersMade_settleUp`). Where the folder is there already, nothing is to be made
(`settleUp_of_isFolder`).
-/
import Recall.Proofs.FileTree.Basic

namespace Recall

namespace FileTree

/-- Nothing happened to a tree but that folders were made, at names with `P`. -/
structure FoldersMade (P : List String → Prop) (before after : FileTree) : Prop where
  kept : ∀ names item, before.get? names = some item → after.get? names = some item
  made : ∀ names item, after.get? names = some item →
    before.get? names = some item ∨ item = .folder ∧ P names

namespace FoldersMade

variable {P Q : List String → Prop} {t t' t'' : FileTree}

theorem refl (P : List String → Prop) (t : FileTree) : FoldersMade P t t :=
  ⟨fun _ _ h => h, fun _ _ h => Or.inl h⟩

theorem trans (h : FoldersMade P t t') (h' : FoldersMade P t' t'') : FoldersMade P t t'' := by
  refine ⟨fun names item hitem => h'.kept names item (h.kept names item hitem), ?_⟩
  intro names item hitem
  rcases h'.made names item hitem with hitem | hnew
  · exact h.made names item hitem
  · exact Or.inr hnew

theorem mono (h : FoldersMade P t t') (hPQ : ∀ names, P names → Q names) : FoldersMade Q t t' :=
  ⟨h.kept, fun names item hitem => (h.made names item hitem).imp_right (And.imp_right (hPQ names))⟩

/-- The files are the ones that were there. -/
theorem file_iff (h : FoldersMade P t t') (names : List String) (bytes : List UInt8) :
    t'.get? names = some (.file bytes) ↔ t.get? names = some (.file bytes) := by
  refine ⟨fun hfile => ?_, h.kept names _⟩
  rcases h.made names _ hfile with hfile | ⟨hfolder, -⟩
  · exact hfile
  · cases hfolder

/-- Where no folder was made everything is as it was. -/
theorem get?_eq (h : FoldersMade P t t') {names : List String} (hnot : ¬ P names) :
    t'.get? names = t.get? names := by
  cases hold : t.get? names with
  | some item => exact h.kept names item hold
  | none =>
    cases hnew : t'.get? names with
    | none => rfl
    | some item =>
      rcases h.made names item hnew with hitem | ⟨-, hP⟩
      · rw [hold] at hitem
        cases hitem
      · exact absurd hP hnot

theorem find (h : FoldersMade P t t') {p : Path} {item : Item} (hitem : t.find p = .ok item) :
    t'.find p = .ok item := by
  obtain ⟨names, hlocate, hget⟩ := find_eq_ok_iff.mp hitem
  refine find_eq_ok_iff.mpr ⟨names, ?_, h.kept names item hget⟩
  exact locate_mono (fun names => h.kept names .folder) hlocate

end FoldersMade

theorem foldersMade_makeFolder {t t' : FileTree} {p : Path} (h : t.makeFolder p = .ok t') :
    FoldersMade (· = resolve [] p.names) t t' := by
  obtain ⟨names, hlocate, hnone, rfl⟩ := makeFolder_eq_ok_iff.mp h
  have hne : names ≠ [] := by
    rintro rfl
    cases hnone
  constructor
  · intro other item hitem
    have hother : other ≠ names := by
      rintro rfl
      rw [hnone] at hitem
      cases hitem
    rwa [get?_put_of_ne hother]
  · intro other item hitem
    by_cases hother : other = names
    · subst hother
      rw [get?_put_self hne] at hitem
      exact Or.inr ⟨(Option.some.inj hitem).symm, eq_resolve_of_locate hlocate⟩
    · rw [get?_put_of_ne hother] at hitem
      exact Or.inl hitem

/-- A front part of names leads to a place. -/
def OnWay (names place : List String) : Prop :=
  ∃ front, front <+: names ∧ place = resolve [] front

/-- A path without dots is no part of the way to its folder. -/
theorem not_onWay_parent {p : Path} (hdots : ".." ∉ p.names) (hne : p.names ≠ []) :
    ¬ OnWay p.parent.names p.names := by
  rintro ⟨front, hfront, heq⟩
  have hbegins : front <+: p.names := hfront.trans (List.dropLast_prefix p.names)
  rw [resolve_of_not_mem fun hmem => hdots (hbegins.subset hmem), List.nil_append] at heq
  have hlength := hfront.length_le
  rw [← heq, Path.parent, List.length_dropLast] at hlength
  have hpos := List.length_pos_iff.mpr hne
  omega

/-- Making the folders on the way to a path without dots makes nothing at the path. -/
theorem FoldersMade.get?_path {t t' : FileTree} {p : Path}
    (h : FoldersMade (OnWay p.parent.names) t t') (hdots : ".." ∉ p.names) :
    t'.get? p.names = t.get? p.names := by
  by_cases hne : p.names = []
  · rw [hne, get?_nil, get?_nil]
  · exact h.get?_eq (not_onWay_parent hdots hne)

section Settling

variable {ε : Type} {make : FileTree → Path → Except ε FileTree}

/-- Making folders with `make` makes folders. -/
theorem foldersMade_settle (hmake : ∀ t p t', make t p = .ok t' → t.makeFolder p = .ok t')
    (t : FileTree) (p : Path) :
    FoldersMade (· = resolve [] p.names) t (t.settle make p).1 := by
  rw [settle]
  split
  · rename_i t' h
    exact foldersMade_makeFolder (hmake t p t' h)
  · exact FoldersMade.refl _ t

theorem foldersMade_settleUp (hmake : ∀ t p t', make t p = .ok t' → t.makeFolder p = .ok t')
    (misses : ε → Bool) (t : FileTree) (absolute : Bool) (up : List String) :
    FoldersMade (OnWay up.reverse) t (t.settleUp make misses absolute up).1 := by
  induction up with
  | nil => exact FoldersMade.refl _ t
  | cons n up ih =>
    have hown : ∀ names, names = resolve [] (n :: up).reverse → OnWay (n :: up).reverse names :=
      fun _ h => ⟨_, List.prefix_rfl, h⟩
    have hup : ∀ names, OnWay up.reverse names → OnWay (n :: up).reverse names := by
      rintro names ⟨front, hfront, h⟩
      rw [List.reverse_cons]
      exact ⟨front, hfront.trans (List.prefix_append _ _), h⟩
    rw [settleUp]
    split
    · rename_i t' h
      exact (foldersMade_makeFolder (hmake t _ t' h)).mono hown
    · split
      · split
        · rename_i t' heq
          rw [heq] at ih
          exact (ih.mono hup).trans ((foldersMade_settle hmake t' _).mono hown)
        · rename_i t' e heq
          rw [heq] at ih
          exact ih.mono hup
      · exact (foldersMade_settle hmake t _).mono hown

end Settling

/-! ## A folder that is there -/

theorem isFolder_iff {t : FileTree} {p : Path} : t.isFolder p = true ↔ t.find p = .ok .folder := by
  rw [isFolder]
  split <;> simp_all

theorem makeFolder_of_isFolder {t : FileTree} {p : Path} (h : t.isFolder p = true) :
    t.makeFolder p = .error .occupied := by
  obtain ⟨names, hlocate, hget⟩ := find_eq_ok_iff.mp (isFolder_iff.mp h)
  simp [makeFolder, hlocate, hget, bind, Except.bind]

/-- Nothing is to be done for a folder that is there, if only for this reason it cannot be made. -/
theorem settleUp_of_isFolder {ε : Type} {make : FileTree → Path → Except ε FileTree}
    {misses : ε → Bool} {t : FileTree} {p : Path} {e : ε} (h : t.isFolder p = true)
    (hmake : make t p = .error e) (hmisses : misses e = false) :
    t.settleUp make misses p.absolute p.names.reverse = (t, .ok ()) := by
  cases hnames : p.names.reverse with
  | nil => rfl
  | cons n up =>
    have hp : (⟨p.absolute, (n :: up).reverse⟩ : Path) = p := by
      rw [← hnames, List.reverse_reverse]
    rw [settleUp, hp]
    simp [hmake, hmisses, settle, h]

/-! ## What can be done in a folder -/

variable {t t' : FileTree} {p : Path} {bytes : List UInt8}

/-- Where its folder is there and no folder stands at the path itself, a path leads to a place for a
file. -/
theorem exists_locate (hparent : t.isFolder p.parent = true) (hp : t.isFolder p = false) :
    ∃ names, t.locate p = .ok names ∧ t.get? names ≠ some .folder := by
  obtain ⟨d, hlocate, hfolder⟩ := find_eq_ok_iff.mp (isFolder_iff.mp hparent)
  obtain ⟨names, hnames⟩ : ∃ names, t.locate p = .ok names := by
    obtain ⟨absolute, names⟩ := p
    cases absolute with
    | true => cases hlocate
    | false =>
      rcases List.eq_nil_or_concat names with rfl | ⟨up, n, rfl⟩
      · exact ⟨[], rfl⟩
      · have hup : (Path.mk false (up.concat n)).parent = ⟨false, up⟩ := by simp [Path.parent]
        rw [hup] at hlocate
        rw [List.concat_eq_append]
        exact ⟨_, (locateFrom_concat [] n).mpr ⟨d, hlocate, hfolder, rfl⟩⟩
  refine ⟨names, hnames, fun htaken => ?_⟩
  rw [isFolder_iff.mpr (find_eq_ok_iff.mpr ⟨names, hnames, htaken⟩)] at hp
  cases hp

theorem exists_write (bytes : List UInt8) (hparent : t.isFolder p.parent = true)
    (hp : t.isFolder p = false) : ∃ t', t.write p bytes = .ok t' := by
  obtain ⟨names, hlocate, hfree⟩ := exists_locate hparent hp
  exact ⟨_, write_eq_ok_iff.mpr ⟨names, hlocate, hfree, rfl⟩⟩

theorem exists_move {source : Path} (hsource : t.read source = .ok bytes)
    (hparent : t.isFolder p.parent = true) (hp : t.isFolder p = false) :
    ∃ t', t.move source p = .ok t' := by
  obtain ⟨old, hold, hbytes⟩ := read_eq_ok_iff.mp hsource
  obtain ⟨new, hnew, hfree⟩ := exists_locate hparent hp
  exact ⟨_, move_eq_ok_iff.mpr ⟨bytes, old, new, hold, hbytes, hnew, hfree, rfl⟩⟩

/-- Writing a file makes no folder and takes none away. -/
theorem isFolder_write (h : t.write p bytes = .ok t') (q : Path) : t'.isFolder q = t.isFolder q := by
  obtain ⟨names, -, hfree, rfl⟩ := write_eq_ok_iff.mp h
  have hkept : ∀ other, t.get? other = some .folder →
      (t.put names (.file bytes)).get? other = some .folder := fun _ => folder_put hfree bytes
  have hown : ∀ other, (t.put names (.file bytes)).get? other = some .folder →
      t.get? other = some .folder := by
    intro other hother
    by_cases hsame : other = names
    · rw [hsame, get?_put_self (ne_nil_of_not_folder hfree)] at hother
      cases hother
    · rwa [get?_put_of_ne hsame] at hother
  rw [Bool.eq_iff_iff, isFolder_iff, isFolder_iff, find_eq_ok_iff, find_eq_ok_iff]
  constructor
  · rintro ⟨d, hlocate, hfolder⟩
    exact ⟨d, locate_mono hown hlocate, hown d hfolder⟩
  · rintro ⟨d, hlocate, hfolder⟩
    exact ⟨d, locate_mono hkept hlocate, hkept d hfolder⟩

end FileTree

end Recall
