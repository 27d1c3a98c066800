/-
Recall.Proofs.Undo.Conservation — a restoration conserves records.

Whatever the list and the anchors are, stale, repeated or made up, nothing of the list is lost,
doubled or moved. `Missing` says which records come back: those of the first anchor of each id that
the list does not have. `restore_conserves` puts the four facts together.

The anchors are taken one at a time, so the induction is on them with the list general. What makes
it go through is that `Missing` follows a step (`missing_cons_of_mem`, `missing_cons_of_not_mem`): a
record put back is in the list from then on, so later anchors of its id find it there.
-/
import Recall.Proofs.Undo.Step

namespace Recall

namespace Undo

variable {α : Type} {id : α → String}

/-- The record is missing from a list: the list has no record of its id, and of the anchors of its
id the first keeps it. -/
def Missing (id : α → String) (items : List α) (anchors : List (Anchor α)) (x : α) : Prop :=
  id x ∉ items.map id ∧ (anchors.find? fun a => id a.item == id x).map Anchor.item = some x

/-! ## 1. The list is a part of the result -/

theorem sublist_restore (anchors : List (Anchor α)) : ∀ items : List α,
    List.Sublist items (restore id items anchors) := by
  induction anchors with
  | nil => exact fun items => List.Sublist.refl items
  | cons a r ih =>
    intro items
    rw [restore_cons]
    exact (sublist_putBack items a).trans (ih _)

theorem nodup_ids_restore (anchors : List (Anchor α)) : ∀ {items : List α},
    (items.map id).Nodup → ((restore id items anchors).map id).Nodup := by
  induction anchors with
  | nil => exact fun h => h
  | cons a r ih =>
    intro items h
    rw [restore_cons]
    exact ih (nodup_ids_putBack a h)

/-- The ids of the result are those of the list and of the anchors. -/
theorem mem_ids_restore {key : String} (anchors : List (Anchor α)) : ∀ {items : List α},
    key ∈ (restore id items anchors).map id ↔
      key ∈ items.map id ∨ ∃ a ∈ anchors, id a.item = key := by
  induction anchors with
  | nil => simp
  | cons a r ih =>
    intro items
    rw [restore_cons, ih, mem_ids_putBack]
    constructor
    · rintro ((rfl | hkey) | ⟨c, hc, rfl⟩)
      · exact .inr ⟨a, List.mem_cons_self, rfl⟩
      · exact .inl hkey
      · exact .inr ⟨c, List.mem_cons_of_mem _ hc, rfl⟩
    · rintro (hkey | ⟨c, hc, rfl⟩)
      · exact .inl (.inr hkey)
      · rcases List.mem_cons.mp hc with rfl | hc
        · exact .inl (.inl rfl)
        · exact .inr ⟨c, hc, rfl⟩

/-- Anchors whose ids are all present put nothing back. -/
theorem restore_eq_self (anchors : List (Anchor α)) {items : List α}
    (h : ∀ a ∈ anchors, id a.item ∈ items.map id) : restore id items anchors = items := by
  induction anchors with
  | nil => rfl
  | cons a r ih =>
    rw [restore_cons, putBack_of_mem (h a List.mem_cons_self)]
    exact ih fun c hc => h c (List.mem_cons_of_mem _ hc)

/-! ## 2. What comes back -/

theorem missing_cons_of_mem {items : List α} {a : Anchor α} {r : List (Anchor α)} {x : α}
    (h : id a.item ∈ items.map id) : Missing id items (a :: r) x ↔ Missing id items r x := by
  unfold Missing
  refine and_congr_right fun hx => ?_
  have hne : id a.item ≠ id x := fun heq => hx (heq ▸ h)
  rw [List.find?_cons_of_neg (by simpa using hne)]

theorem missing_cons_of_not_mem {items : List α} {a : Anchor α} {r : List (Anchor α)} {x : α}
    (h : id a.item ∉ items.map id) :
    Missing id items (a :: r) x ↔ x = a.item ∨ Missing id (putBack id items a) r x := by
  unfold Missing
  rw [mem_ids_putBack, not_or]
  by_cases heq : id a.item = id x
  · rw [List.find?_cons_of_pos (by simpa using heq)]
    constructor
    · rintro ⟨-, hx⟩
      exact .inl (Option.some.inj hx).symm
    · rintro (rfl | ⟨⟨hne, -⟩, -⟩)
      · exact ⟨h, rfl⟩
      · exact absurd heq.symm hne
  · rw [List.find?_cons_of_neg (by simpa using heq)]
    constructor
    · rintro ⟨hx, hfind⟩
      exact .inr ⟨⟨fun hxa => heq hxa.symm, hx⟩, hfind⟩
    · rintro (rfl | ⟨⟨-, hx⟩, hfind⟩)
      · exact absurd rfl heq
      · exact ⟨hx, hfind⟩

/-- The result is the list with the missing records, each of them once. -/
theorem exists_perm_append_missing (anchors : List (Anchor α)) : ∀ items : List α,
    ∃ added : List α, (restore id items anchors).Perm (items ++ added) ∧
      (added.map id).Nodup ∧ ∀ x, x ∈ added ↔ Missing id items anchors x := by
  induction anchors with
  | nil =>
    intro items
    exact ⟨[], by simp, by simp, by simp [Missing]⟩
  | cons a r ih =>
    intro items
    obtain ⟨added, hperm, hnodup, hmem⟩ := ih (putBack id items a)
    rw [restore_cons]
    by_cases h : id a.item ∈ items.map id
    · rw [putBack_of_mem h] at hperm hmem ⊢
      exact ⟨added, hperm, hnodup, fun x => (hmem x).trans (missing_cons_of_mem h).symm⟩
    · have hfresh : id a.item ∉ added.map id := by
        intro hin
        obtain ⟨x, hx, hxa⟩ := List.mem_map.mp hin
        exact ((hmem x).mp hx).1 (mem_ids_putBack.mpr (.inl hxa))
      refine ⟨a.item :: added, ?_, List.nodup_cons.mpr ⟨hfresh, hnodup⟩, fun x => ?_⟩
      · exact (hperm.trans ((putBack_perm h).append_right added)).trans
          List.perm_middle.symm
      · rw [List.mem_cons, hmem, missing_cons_of_not_mem h]

/-! ## 3. Conservation -/

/-- **A restoration conserves records.** The list is a subsequence of the result, what is added are
the missing records, each once, ids that were distinct stay distinct, and restoring the same anchors
again changes nothing. -/
theorem restore_conserves (id : α → String) (current : List α) (anchors : List (Anchor α)) :
    List.Sublist current (restore id current anchors) ∧
      (∃ added : List α, (restore id current anchors).Perm (current ++ added) ∧
        (added.map id).Nodup ∧ ∀ x, x ∈ added ↔ Missing id current anchors x) ∧
      ((current.map id).Nodup → ((restore id current anchors).map id).Nodup) ∧
      restore id (restore id current anchors) anchors = restore id current anchors :=
  ⟨sublist_restore anchors current, exists_perm_append_missing anchors current,
    nodup_ids_restore anchors,
    restore_eq_self anchors fun a ha => (mem_ids_restore anchors).mpr (.inr ⟨a, ha, rfl⟩)⟩

end Undo

end Recall
