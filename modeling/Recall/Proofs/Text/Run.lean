/-
Recall.Proofs.Text.Run — the maximal runs of a text.

The *runs* of a text are its stretches of characters with a property that cannot be made longer. A text
is taken apart into them from the left: what stands before the first run lacks the property, and what
follows a run lacks it, too, or is nothing. There is one way to do so, and it is what cutting a text at
the characters without the property gives, less the empty pieces (`runs_iff`).
-/
import Recall.Proofs.Text.Spacing

namespace Recall

namespace Chars

variable {α : Type} {p q : α → Bool}

/-- The maximal runs of elements with `p`, in order. -/
inductive Runs (p : α → Bool) : List α → List (List α) → Prop
  | gap {as : List α} : (∀ a ∈ as, p a = false) → Runs p as []
  | run {gap w rest : List α} {ws : List (List α)} : (∀ a ∈ gap, p a = false) → w ≠ [] →
      (∀ a ∈ w, p a = true) → (∀ a ∈ rest.head?, p a = false) → Runs p rest ws →
      Runs p (gap ++ w ++ rest) (w :: ws)

/-- The first run and what follows it. -/
theorem fields_run {gap w rest : List α} (hgap : ∀ a ∈ gap, p a = true) (hne : w ≠ [])
    (hw : ∀ a ∈ w, p a = false) (hend : ∀ a ∈ rest.head?, p a = true) :
    fields p (gap ++ w ++ rest) = w :: fields p rest := by
  have hfirst : fields p (gap ++ w) = [w] := by
    have h := fields_append_append hgap (by simp : ∀ a ∈ ([] : List α), p a = true) w
    rwa [List.append_nil, fields_of_forall_not hne hw] at h
  cases rest with
  | nil =>
    rw [List.append_nil, hfirst]
    rfl
  | cons a r =>
    have ha : p a = true := hend a rfl
    have hrest : fields p (a :: r) = fields p r := fields_append_cons ha [] r
    rw [fields_append_cons ha, hfirst, hrest]
    rfl

theorem Runs.eq_fields {as : List α} {ws : List (List α)} (h : Runs p as ws) :
    ws = fields (fun a => !p a) as := by
  induction h with
  | gap hgap =>
    refine (fields_eq_nil_iff.mpr fun a ha => ?_).symm
    rw [hgap a ha]
    rfl
  | run hgap hne hw hend _ ih =>
    rw [fields_run (by simpa using hgap) hne (by simpa using hw) (by simpa using hend), ih]

/-- A run at the start. -/
theorem Runs.start {w rest : List α} {ws : List (List α)} (hne : w ≠ []) (hw : ∀ a ∈ w, p a = true)
    (hend : ∀ a ∈ rest.head?, p a = false) (h : Runs p rest ws) : Runs p (w ++ rest) (w :: ws) := by
  have hgap : ∀ a ∈ ([] : List α), p a = false := by simp
  simpa using Runs.run hgap hne hw hend h

/-- An element without the property widens the gap in front of the first run. -/
theorem Runs.cons_gap {a : α} {as : List α} {ws : List (List α)} (ha : p a = false)
    (h : Runs p as ws) : Runs p (a :: as) ws := by
  cases h with
  | gap hgap => exact .gap (List.forall_mem_cons.mpr ⟨ha, hgap⟩)
  | run hgap hne hw hend hrest =>
    exact .run (List.forall_mem_cons.mpr ⟨ha, hgap⟩) hne hw hend hrest

/-- An element with the property makes the first run longer if it stands next to it, and is a run of its
own if it does not. -/
theorem Runs.exists_cons_run {a : α} {as : List α} {ws : List (List α)} (ha : p a = true)
    (h : Runs p as ws) : ∃ ws', Runs p (a :: as) ws' := by
  have hone : ∀ b ∈ [a], p b = true := by simpa using ha
  cases h with
  | gap hgap =>
    have hend : ∀ b ∈ as.head?, p b = false := fun b hb => hgap b (List.mem_of_mem_head? hb)
    exact ⟨[[a]], .start (List.cons_ne_nil a []) hone hend (.gap hgap)⟩
  | @run gap w rest ws hgap hne hw hend hrest =>
    cases gap with
    | nil =>
      have hlonger : ∀ b ∈ a :: w, p b = true := List.forall_mem_cons.mpr ⟨ha, hw⟩
      exact ⟨(a :: w) :: ws, .start (List.cons_ne_nil a w) hlonger hend hrest⟩
    | cons g gap =>
      have hstop : ∀ b ∈ (g :: gap ++ w ++ rest).head?, p b = false := by
        simpa using hgap g List.mem_cons_self
      exact ⟨[a] :: w :: ws,
        .start (List.cons_ne_nil a []) hone hstop (.run hgap hne hw hend hrest)⟩

theorem exists_runs (p : α → Bool) : ∀ as : List α, ∃ ws, Runs p as ws
  | [] => ⟨[], .gap (by simp)⟩
  | a :: as => by
      obtain ⟨ws, h⟩ := exists_runs p as
      by_cases ha : p a = true
      · exact h.exists_cons_run ha
      · exact ⟨ws, h.cons_gap (Bool.eq_false_iff.mpr ha)⟩

/-- Cutting at the elements without a property gives the maximal runs of those with it. -/
theorem runs_iff {as : List α} {ws : List (List α)} :
    Runs p as ws ↔ ws = fields (fun a => !p a) as := by
  constructor
  · exact Runs.eq_fields
  · rintro rfl
    obtain ⟨ws, h⟩ := exists_runs p as
    rwa [← h.eq_fields]

/-- Only the elements that are there matter. -/
theorem Runs.congr {as : List α} {ws : List (List α)} (h : Runs p as ws)
    (hpq : ∀ a ∈ as, p a = q a) : Runs q as ws := by
  induction h with
  | gap hgap => exact .gap fun a ha => hpq a ha ▸ hgap a ha
  | run hgap hne hw hend _ ih =>
    simp only [List.mem_append, or_imp, forall_and] at hpq
    obtain ⟨⟨hgap', hw'⟩, hrest'⟩ := hpq
    exact .run (fun a ha => hgap' a ha ▸ hgap a ha) hne (fun a ha => hw' a ha ▸ hw a ha)
      (fun a ha => hrest' a (List.mem_of_mem_head? ha) ▸ hend a ha) (ih hrest')

end Chars

end Recall
