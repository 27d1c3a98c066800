/-
Recall.Proofs.Undo.Step — what one anchor does to the list that is being restored.

`restore` keeps the ids that are present beside the list. `restore_eq_foldl` says that the two never
drift apart: a restoration is the fold of `putBack`, which looks at the list alone. All that is said
about restorations afterwards is said about `putBack`, and each of its facts stands here once:

* the list is a part of the list with the record put back, and the record is all that is new
  (`sublist_putBack`, `putBack_perm`);
* the record stands behind its left neighbour, else ahead of its right one, else first
  (`putBack_behind`, `putBack_ahead`, `putBack_first`);
* two records that stand side by side are not separated unless the anchor names one of them on the
  side where the other stands (`infix_putBack`), and the first record stays first
  (`head?_putBack`).
-/
import Mathlib.Data.List.InsertIdx
import Recall.Selection.Undo

namespace Recall

namespace Undo

variable {α : Type} {id : α → String}

/-! ## 1. The place of an id -/

theorem lastIndex?_eq_none_iff {key : String} : ∀ {items : List α},
    lastIndex? id key items = none ↔ key ∉ items.map id
  | [] => by simp [lastIndex?]
  | a :: r => by
      have ih : lastIndex? id key r = none ↔ key ∉ r.map id := lastIndex?_eq_none_iff
      rw [lastIndex?, List.map_cons, List.mem_cons, not_or]
      cases hr : lastIndex? id key r with
      | some i =>
        have hmem : key ∈ r.map id := by
          by_contra hno
          rw [ih.mpr hno] at hr
          cases hr
        simp only [reduceCtorEq, false_iff, not_and, not_not]
        exact fun _ => hmem
      | none =>
        have hno := ih.mp hr
        by_cases ha : id a = key
        · simp [ha]
        · simp only [if_neg ha, true_iff]
          exact ⟨fun h => ha h.symm, hno⟩

/-- Behind its last occurrence an id does not occur again. -/
theorem lastIndex?_append_cons {b : α} {v : List α} (hv : id b ∉ v.map id) : ∀ u : List α,
    lastIndex? id (id b) (u ++ b :: v) = some u.length
  | [] => by simp [lastIndex?, lastIndex?_eq_none_iff.mpr hv]
  | a :: u => by simp [lastIndex?, lastIndex?_append_cons hv u]

theorem getElem?_lastIndex? {key : String} : ∀ {items : List α} {i : Nat},
    lastIndex? id key items = some i → ∃ b, items[i]? = some b ∧ id b = key
  | [], i, h => by simp [lastIndex?] at h
  | a :: r, i, h => by
      rw [lastIndex?] at h
      split at h
      · rename_i j hj
        obtain ⟨b, hb, hkey⟩ := getElem?_lastIndex? hj
        simp only [Option.some.injEq] at h
        subst h
        exact ⟨b, by simpa using hb, hkey⟩
      · split at h
        · rename_i ha
          simp only [Option.some.injEq] at h
          subst h
          exact ⟨a, rfl, ha⟩
        · cases h

/-! ## 2. One step -/

/-- Puts the record of an anchor back into a list that has no record of its id. -/
def putBack (id : α → String) (items : List α) (a : Anchor α) : List α :=
  if id a.item ∈ items.map id then items
  else items.insertIdx (position id items a) a.item

theorem putBack_of_mem {items : List α} {a : Anchor α} (h : id a.item ∈ items.map id) :
    putBack id items a = items := if_pos h

theorem putBack_of_not_mem {items : List α} {a : Anchor α} (h : id a.item ∉ items.map id) :
    putBack id items a = items.insertIdx (position id items a) a.item := if_neg h

/-- The ids beside the list answer as the list itself would. -/
theorem restoreOne_items (s : Restoring id) (a : Anchor α) :
    (restoreOne s a).items = putBack id s.items a := by
  have hmem := s.mem_present (id a.item)
  unfold restoreOne putBack
  by_cases h : id a.item ∈ s.present
  · simp [h, hmem.mp h]
  · have hno : id a.item ∉ s.items.map id := fun hin => h (hmem.mpr hin)
    simp [h, hno]

theorem foldl_restoreOne_items (anchors : List (Anchor α)) : ∀ s : Restoring id,
    (anchors.foldl restoreOne s).items = anchors.foldl (putBack id) s.items := by
  induction anchors with
  | nil => intro s; rfl
  | cons a r ih =>
    intro s
    rw [List.foldl_cons, List.foldl_cons, ih, restoreOne_items]

/-- A restoration puts the records of the anchors back one by one. -/
theorem restore_eq_foldl (items : List α) (anchors : List (Anchor α)) :
    restore id items anchors = anchors.foldl (putBack id) items :=
  foldl_restoreOne_items anchors _

@[simp] theorem restore_nil (items : List α) : restore id items [] = items := rfl

theorem restore_cons (items : List α) (a : Anchor α) (r : List (Anchor α)) :
    restore id items (a :: r) = restore id (putBack id items a) r := by
  simp only [restore_eq_foldl, List.foldl_cons]

theorem restore_append (items : List α) (r r' : List (Anchor α)) :
    restore id items (r ++ r') = restore id (restore id items r) r' := by
  simp only [restore_eq_foldl, List.foldl_append]

/-! ## 3. Nothing is lost and nothing but the record is new -/

theorem sublist_putBack (items : List α) (a : Anchor α) :
    List.Sublist items (putBack id items a) := by
  unfold putBack
  split
  · exact List.Sublist.refl _
  · exact List.sublist_insertIdx _ _ _

theorem putBack_perm {items : List α} {a : Anchor α} (h : id a.item ∉ items.map id) :
    (putBack id items a).Perm (a.item :: items) := by
  rw [putBack_of_not_mem h]
  exact List.perm_insertIdx _ _ (position_le id items a)

/-- After the step the id of the anchor is there, and otherwise the ids are those before it. -/
theorem mem_ids_putBack {items : List α} {a : Anchor α} {key : String} :
    key ∈ (putBack id items a).map id ↔ key = id a.item ∨ key ∈ items.map id := by
  by_cases h : id a.item ∈ items.map id
  · rw [putBack_of_mem h]
    constructor
    · exact .inr
    · rintro (rfl | hkey)
      · exact h
      · exact hkey
  · rw [((putBack_perm h).map id).mem_iff]
    simp

theorem nodup_ids_putBack {items : List α} (a : Anchor α) (h : (items.map id).Nodup) :
    ((putBack id items a).map id).Nodup := by
  by_cases ha : id a.item ∈ items.map id
  · rwa [putBack_of_mem ha]
  · rw [((putBack_perm ha).map id).nodup_iff]
    exact List.nodup_cons.mpr ⟨ha, h⟩

/-! ## 4. Where the record stands -/

theorem insertIdx_append_left {x : α} {t : List α} : ∀ {s : List α} {i : Nat}, i ≤ s.length →
    (s ++ t).insertIdx i x = s.insertIdx i x ++ t
  | _, 0, _ => rfl
  | [], i + 1, h => by simp at h
  | a :: s, i + 1, h => by
      rw [List.cons_append, List.insertIdx_succ_cons, List.insertIdx_succ_cons, List.cons_append,
          insertIdx_append_left (Nat.le_of_succ_le_succ h)]

theorem insertIdx_append_right {x : α} {t : List α} (i : Nat) : ∀ s : List α,
    (s ++ t).insertIdx (s.length + i) x = s ++ t.insertIdx i x
  | [] => by simp
  | a :: s => by
      rw [List.cons_append, List.length_cons, Nat.add_right_comm, List.insertIdx_succ_cons,
          insertIdx_append_right i s, List.cons_append]

theorem putBack_behind {u v : List α} {b : α} {a : Anchor α} (ha : a.before = some (id b))
    (hv : id b ∉ v.map id) (hnew : id a.item ∉ (u ++ b :: v).map id) :
    putBack id (u ++ b :: v) a = u ++ b :: a.item :: v := by
  have hpos : position id (u ++ b :: v) a = u.length + 1 := by
    simp [position, ha, lastIndex?_append_cons hv]
  rw [putBack_of_not_mem hnew, hpos, insertIdx_append_right]
  rfl

theorem putBack_ahead {u v : List α} {c : α} {a : Anchor α}
    (hb : ∀ key ∈ a.before, key ∉ (u ++ c :: v).map id) (ha : a.after = some (id c))
    (hv : id c ∉ v.map id) (hnew : id a.item ∉ (u ++ c :: v).map id) :
    putBack id (u ++ c :: v) a = u ++ a.item :: c :: v := by
  have hleft : (a.before.bind fun key => lastIndex? id key (u ++ c :: v)) = none := by
    rw [Option.bind_eq_none_iff]
    exact fun key hkey => lastIndex?_eq_none_iff.mpr (hb key hkey)
  have hpos : position id (u ++ c :: v) a = u.length := by
    simp [position, hleft, ha, lastIndex?_append_cons hv]
  rw [putBack_of_not_mem hnew, hpos]
  exact insertIdx_append_right 0 u

theorem putBack_first {items : List α} {a : Anchor α} (hb : a.before = none)
    (ha : ∀ key ∈ a.after, key ∉ items.map id) (hnew : id a.item ∉ items.map id) :
    putBack id items a = a.item :: items := by
  have hright : (a.after.bind fun key => lastIndex? id key items) = none := by
    rw [Option.bind_eq_none_iff]
    exact fun key hkey => lastIndex?_eq_none_iff.mpr (ha key hkey)
  have hpos : position id items a = 0 := by
    simp [position, hb, hright]
  rw [putBack_of_not_mem hnew, hpos, List.insertIdx_zero]

/-! ## 5. Neighbours stay neighbours -/

/-- The place between two records is taken only by an anchor that names the one on its left as the
left neighbour or the one on its right as the right neighbour. -/
theorem eq_or_eq_of_position_eq {items : List α} {a : Anchor α} {k : Nat} {x y : α}
    (hx : items[k]? = some x) (hy : items[k + 1]? = some y)
    (hpos : position id items a = k + 1) :
    a.before = some (id x) ∨ a.after = some (id y) := by
  unfold position at hpos
  split at hpos
  · rename_i i hi
    obtain ⟨key, hbefore, hkey⟩ := Option.bind_eq_some_iff.mp hi
    obtain ⟨b, hb, rfl⟩ := getElem?_lastIndex? hkey
    obtain rfl : i = k := by omega
    rw [hx] at hb
    cases hb
    exact .inl hbefore
  · split at hpos
    · rename_i i hi
      obtain ⟨key, hafter, hkey⟩ := Option.bind_eq_some_iff.mp hi
      obtain ⟨c, hc, rfl⟩ := getElem?_lastIndex? hkey
      subst hpos
      rw [hy] at hc
      cases hc
      exact .inr hafter
    · have hlt : k + 1 < items.length := (List.getElem?_eq_some_iff.mp hy).1
      split at hpos <;> omega

theorem infix_putBack {items : List α} {a : Anchor α} {x y : α} (hxy : [x, y] <:+: items)
    (hb : a.before ≠ some (id x)) (ha : a.after ≠ some (id y)) :
    [x, y] <:+: putBack id items a := by
  by_cases hnew : id a.item ∈ items.map id
  · rwa [putBack_of_mem hnew]
  · obtain ⟨s, t, rfl⟩ := hxy
    have hne : position id (s ++ [x, y] ++ t) a ≠ s.length + 1 := by
      intro hpos
      rcases eq_or_eq_of_position_eq (x := x) (y := y) (by simp) (by simp) hpos with h | h
      · exact hb h
      · exact ha h
    rw [putBack_of_not_mem hnew]
    generalize position id (s ++ [x, y] ++ t) a = p at hne
    by_cases hp : p ≤ s.length
    · rw [List.append_assoc, insertIdx_append_left hp, ← List.append_assoc]
      exact List.infix_append _ _ _
    · obtain ⟨k, rfl⟩ : ∃ k, p = (s ++ [x, y]).length + k :=
        ⟨p - s.length - 2, by simp; omega⟩
      rw [insertIdx_append_right]
      exact List.infix_append _ _ _

theorem head?_putBack {items : List α} {a : Anchor α} {d : α} (hd : items.head? = some d)
    (hb : a.before ≠ none) (ha : a.after ≠ some (id d)) :
    (putBack id items a).head? = some d := by
  by_cases hnew : id a.item ∈ items.map id
  · rwa [putBack_of_mem hnew]
  · obtain ⟨r, rfl⟩ := List.head?_eq_some_iff.mp hd
    have hne : position id (d :: r) a ≠ 0 := by
      intro hpos
      unfold position at hpos
      split at hpos
      · cases hpos
      · split at hpos
        · rename_i i hi
          obtain ⟨key, hafter, hkey⟩ := Option.bind_eq_some_iff.mp hi
          obtain ⟨c, hc, rfl⟩ := getElem?_lastIndex? hkey
          subst hpos
          cases hc
          exact ha hafter
        · simp [Option.isNone_iff_eq_none, hb] at hpos
    rw [putBack_of_not_mem hnew]
    obtain ⟨p, hp⟩ := Nat.exists_eq_succ_of_ne_zero hne
    rw [hp, List.insertIdx_succ_cons, List.head?_cons]

end Undo

end Recall
