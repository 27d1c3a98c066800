/-
Recall.Proofs.Undo.RoundTrip — undoing a deletion whose survivors were edited meanwhile.

`restore_capture_update`: records are deleted, some of the survivors are updated by a function that
keeps their ids, and the deletion is undone. The result is the list as it was before, in its order,
with the deleted records as they were and the survivors as they are now.

The induction is on the part of the original list that is still to come. Its invariant
(`restore_captureFrom`) is that the list is `done ++ kept`, where `done` holds everything up to here,
rebuilt, and `kept` the survivors among what is to come. So a record that comes back stands behind
the last of `done`, or, when there is nothing yet, in front of everything.
-/
import Recall.Proofs.Undo.Step
import Recall.Selection.Basic

namespace Recall

namespace Undo

variable {α : Type} {id : α → String}

/-! ## 1. What is left -/

/-- What is left of a list once the records with some ids are deleted. -/
def survivors (id : α → String) (deleted : List String) (items : List α) : List α :=
  items.filter fun a => !deleted.contains (id a)

theorem survivors_cons_of_mem {deleted : List String} {a : α} (r : List α)
    (h : id a ∈ deleted) : survivors id deleted (a :: r) = survivors id deleted r := by
  simp [survivors, h]

theorem survivors_cons_of_not_mem {deleted : List String} {a : α} (r : List α)
    (h : id a ∉ deleted) : survivors id deleted (a :: r) = a :: survivors id deleted r := by
  simp [survivors, h]

/-- Survivors have ids of the list, also when they are updated. -/
theorem mem_ids_survivors {deleted : List String} {g : α → α} {items : List α} {key : String}
    (hg : ∀ a ∈ items, id (g a) = id a)
    (h : key ∈ ((survivors id deleted items).map g).map id) : key ∈ items.map id := by
  obtain ⟨b, hb, rfl⟩ := List.mem_map.mp h
  obtain ⟨a, ha, rfl⟩ := List.mem_map.mp hb
  have hin : a ∈ items := (List.mem_filter.mp ha).1
  rw [hg a hin]
  exact List.mem_map_of_mem hin

/-! ## 2. One record comes back -/

/-- The next deleted record comes back between what is rebuilt and what is to come. -/
theorem putBack_rebuilt {deleted : List String} {g : α → α} {done r : List α} {a : α}
    (hn : ((done ++ a :: r).map id).Nodup) (hg : ∀ b ∈ r, id (g b) = id b) :
    putBack id (done ++ (survivors id deleted r).map g)
        ⟨a, done.getLast?.map id, r.head?.map id⟩ =
      done ++ a :: (survivors id deleted r).map g := by
  rw [List.map_append, List.map_cons, List.nodup_append] at hn
  obtain ⟨-, har, hdone⟩ := hn
  obtain ⟨har, hr⟩ := List.nodup_cons.mp har
  have hnew : id a ∉ (done ++ (survivors id deleted r).map g).map id := by
    rw [List.map_append, List.mem_append]
    rintro (h | h)
    · exact hdone _ h _ List.mem_cons_self rfl
    · exact har (mem_ids_survivors hg h)
  rcases List.eq_nil_or_concat done with rfl | ⟨u, b, rfl⟩
  · cases r with
    | nil => exact putBack_first rfl (by simp) hnew
    | cons c r =>
      have hcr : id c ∉ r.map id := (List.nodup_cons.mp hr).1
      have hg' : ∀ b ∈ r, id (g b) = id b := fun b hb => hg b (List.mem_cons_of_mem _ hb)
      by_cases hc : id c ∈ deleted
      · -- the right neighbour is deleted too, so it is not there
        rw [survivors_cons_of_mem r hc] at hnew ⊢
        refine putBack_first rfl ?_ hnew
        simpa using fun b hb hbc => hcr (mem_ids_survivors hg' (by simpa using ⟨b, hb, hbc⟩))
      · rw [survivors_cons_of_not_mem r hc, List.map_cons] at hnew ⊢
        have hgc : id (g c) = id c := hg c List.mem_cons_self
        exact putBack_ahead (u := []) (by simp) (by simp [hgc])
          (fun h => hcr (mem_ids_survivors hg' (hgc ▸ h))) hnew
  · rw [List.concat_eq_append, List.append_assoc] at hnew ⊢
    have hb : id b ∉ ((survivors id deleted r).map g).map id := fun h =>
      hdone (id b) (by simp) (id b) (List.mem_cons_of_mem _ (mem_ids_survivors hg h)) rfl
    rw [List.append_assoc]
    exact putBack_behind (by simp) hb hnew

/-! ## 3. The run -/

/-- With everything rebuilt up to here, the rest of the run rebuilds what is to come. -/
theorem restore_captureFrom (deleted : List String) (g : α → α) : ∀ (r done : List α),
    ((done ++ r).map id).Nodup → (∀ a ∈ r, id (g a) = id a) →
    restore id (done ++ (survivors id deleted r).map g)
        (captureFrom id deleted (done.getLast?.map id) r) =
      done ++ r.map fun a => if id a ∈ deleted then a else g a
  | [], done, _, _ => by simp [survivors, captureFrom]
  | a :: r, done, hn, hg => by
      have hg' : ∀ b ∈ r, id (g b) = id b := fun b hb => hg b (List.mem_cons_of_mem _ hb)
      by_cases ha : id a ∈ deleted
      · have ih := restore_captureFrom deleted g r (done ++ [a])
          (by simpa using hn) hg'
        rw [captureFrom, if_pos (by simpa using ha), restore_cons, survivors_cons_of_mem r ha,
            putBack_rebuilt hn hg']
        simpa [ha] using ih
      · have hga : id (g a) = id a := hg a List.mem_cons_self
        have ih := restore_captureFrom deleted g r (done ++ [g a])
          (by simpa [hga] using hn) hg'
        rw [captureFrom, if_neg (by simpa using ha), survivors_cons_of_not_mem r ha]
        simpa [ha, hga] using ih

/-! ## 4. The round trip -/

/-- **Undoing a deletion after the survivors were updated** gives the list as it was, with the
deleted records as they were and the survivors as they are now; when nothing was updated it gives
the list itself. -/
theorem restore_capture_update {items : List α} {f : α → α} (deleted selected : List String)
    (hn : (items.map id).Nodup) (hf : ∀ a ∈ items, id (f a) = id a) :
    restore id (Selection.update id selected f (survivors id deleted items))
        (capture id items deleted) =
      items.map (fun a => if id a ∈ deleted then a else if id a ∈ selected then f a else a) ∧
    restore id (survivors id deleted items) (capture id items deleted) = items := by
  have hkeep : ∀ a ∈ items, id (if id a ∈ selected then f a else a) = id a := by
    intro a ha
    split
    · exact hf a ha
    · rfl
  have hupdate : Selection.update id selected f (survivors id deleted items) =
      (survivors id deleted items).map fun a => if id a ∈ selected then f a else a := by
    refine List.map_congr_left fun a _ => ?_
    by_cases ha : id a ∈ selected <;> simp [Selection.updateOne, ha]
  constructor
  · rw [hupdate]
    exact restore_captureFrom deleted _ items [] hn hkeep
  · simpa [capture] using restore_captureFrom deleted (fun a => a) items [] hn fun _ _ => rfl

/-- Two neighbours go, the record behind them is updated, and they come back ahead of it. -/
theorem restore_capture_update_neighbours :
    ([("a", 1), ("b", 2), ("c", 3), ("d", 4)].map Prod.fst).Nodup ∧
    (∀ a ∈ [("a", 1), ("b", 2), ("c", 3), ("d", 4)], (a.1, a.2 + 10).1 = a.1) ∧
    restore Prod.fst
        (Selection.update Prod.fst ["d", "b"] (fun a => (a.1, a.2 + 10))
          (survivors Prod.fst ["c", "x", "b", "c"] [("a", 1), ("b", 2), ("c", 3), ("d", 4)]))
        (capture Prod.fst [("a", 1), ("b", 2), ("c", 3), ("d", 4)] ["c", "x", "b", "c"]) =
      [("a", 1), ("b", 2), ("c", 3), ("d", 14)] := by
  have hn : ([("a", 1), ("b", 2), ("c", 3), ("d", 4)].map Prod.fst).Nodup := by decide
  have hf : ∀ a ∈ [("a", 1), ("b", 2), ("c", 3), ("d", 4)], (a.1, a.2 + 10).1 = a.1 :=
    fun _ _ => rfl
  refine ⟨hn, hf, ?_⟩
  rw [(restore_capture_update ["c", "x", "b", "c"] ["d", "b"] hn hf).1]
  decide

end Undo

end Recall
