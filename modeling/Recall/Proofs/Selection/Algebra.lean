/-
Recall.Proofs.Selection.Algebra — a selection is an ordered set.

A selection without repeats is known when its ids are known as a set and in their order. On the set,
the three steps that a list on screen takes are union, difference and intersection (`Step.onSet`). On
the order, what stays selected stays as it stood and what is new comes behind it, as it is visible
(`Step.Orders`).

The steps take shortcuts where nothing changes. `get_enable`, `get_disable` and `get_prune` say what
each comes to whether it took one or not, and nothing else looks at the shortcuts. One step is then
`nodup_apply`, `toFinset_apply` and `orders_apply`; a run of steps is `run_orderedSet`.
-/
import Mathlib.Data.Finset.Basic
import Mathlib.Data.Finset.Dedup
import Recall.Proofs.Text.Chars
import Recall.Selection.Basic

namespace Recall

namespace Selection

/-! ## 1. What a step comes to -/

theorem get_enable (selected visible : List String) :
    (enable selected visible).get selected =
      selected ++ Text.distinct (visible.filter fun id => !selected.contains id) := by
  unfold enable
  split
  · rename_i h
    rw [h, List.append_nil, Edit.get_unchanged]
  · simp

theorem get_disable (selected visible : List String) :
    (disable selected visible).get selected =
      selected.filter fun id => !visible.contains id := by
  unfold disable
  split
  · simp
  · rename_i h
    have hnone : ∀ id ∈ selected, (!visible.contains id) = true := by
      simpa using h
    simp only [Edit.get_unchanged, List.filter_eq_self.mpr hnone]

theorem get_prune (selected valid : List String) :
    (prune selected valid).get selected = selected.filter valid.contains := by
  unfold prune
  split
  · rename_i h
    have hall : ∀ id ∈ selected, valid.contains id = true := List.all_eq_true.mp h
    simp only [Edit.get_unchanged, List.filter_eq_self.mpr hall]
  · simp

/-! ## 2. Steps -/

/-- A step that changes what is selected. -/
inductive Step where
  /-- Selects everything visible. -/
  | enable (visible : List String)
  /-- Deselects everything visible. -/
  | disable (visible : List String)
  /-- Drops what is no longer valid. -/
  | prune (valid : List String)
  deriving DecidableEq, Repr

namespace Step

/-- The selection after a step. -/
def apply (selected : List String) : Step → List String
  | .enable visible => (toggle selected visible true).get selected
  | .disable visible => (toggle selected visible false).get selected
  | .prune valid => (Selection.prune selected valid).get selected

/-- What a step makes of the set of selected ids. -/
def onSet (selected : Finset String) : Step → Finset String
  | .enable visible => selected ∪ visible.toFinset
  | .disable visible => selected \ visible.toFinset
  | .prune valid => selected ∩ valid.toFinset

/-- The ids that a step may add, in the order in which they are visible. An id that is visible more
than once counts where it stands first. -/
def offers : Step → List String
  | .enable visible => Text.distinct visible
  | .disable _ | .prune _ => []

/-- The order that a step leaves: first the ids that stay selected, as they stood, and behind them
new ones, as they are visible. -/
def Orders (step : Step) (before after : List String) : Prop :=
  ∃ added, after = before.filter after.contains ++ added ∧ added.Sublist step.offers

theorem apply_enable (selected visible : List String) :
    (Step.enable visible).apply selected =
      selected ++ (Text.distinct visible).filter fun id => !selected.contains id := by
  rw [← Text.distinct_filter]
  exact get_enable selected visible

theorem apply_disable (selected visible : List String) :
    (Step.disable visible).apply selected = selected.filter fun id => !visible.contains id :=
  get_disable selected visible

theorem apply_prune (selected valid : List String) :
    (Step.prune valid).apply selected = selected.filter valid.contains :=
  get_prune selected valid

theorem nodup_apply {selected : List String} (h : selected.Nodup) (step : Step) :
    (step.apply selected).Nodup := by
  cases step with
  | enable visible =>
    rw [apply_enable]
    refine List.Nodup.append h ((Text.nodup_distinct visible).filter _) ?_
    intro id hold hnew
    simpa [hold] using (List.mem_filter.mp hnew).2
  | disable visible =>
    rw [apply_disable]
    exact h.filter _
  | prune valid =>
    rw [apply_prune]
    exact h.filter _

/-- A step on the list is a step on the set. -/
theorem toFinset_apply (selected : List String) (step : Step) :
    (step.apply selected).toFinset = step.onSet selected.toFinset := by
  ext id
  cases step with
  | enable visible =>
    simp only [apply_enable, onSet, List.mem_toFinset, List.mem_append, List.mem_filter,
      Text.mem_distinct, Finset.mem_union, Bool.not_eq_true', List.contains_eq_mem,
      decide_eq_false_iff_not]
    tauto
  | disable visible => simp [apply_disable, onSet]
  | prune valid => simp [apply_prune, onSet]

/-- What is left of a list when only some of it stays. -/
theorem filter_contains_filter (l : List String) (p : String → Bool) :
    l.filter (l.filter p).contains = l.filter p := by
  refine List.filter_congr ?_
  intro id hid
  rw [Bool.eq_iff_iff]
  simp [hid]

theorem orders_apply (selected : List String) (step : Step) :
    step.Orders selected (step.apply selected) := by
  cases step with
  | enable visible =>
    have hstays : selected.filter ((Step.enable visible).apply selected).contains = selected := by
      refine List.filter_eq_self.mpr ?_
      intro id hid
      simp [apply_enable, hid]
    refine ⟨(Text.distinct visible).filter fun id => !selected.contains id, ?_,
      List.filter_sublist⟩
    rw [hstays, apply_enable]
  | disable visible =>
    rw [apply_disable]
    exact ⟨[], by rw [filter_contains_filter, List.append_nil], List.Sublist.refl _⟩
  | prune valid =>
    rw [apply_prune]
    exact ⟨[], by rw [filter_contains_filter, List.append_nil], List.Sublist.refl _⟩

end Step

/-! ## 3. What still exists -/

theorem length_active (selected existing : List String) :
    (active selected existing).ids.length + (active selected existing).missing =
      selected.length := by
  have hle : (selected.filter existing.contains).length ≤ selected.length :=
    List.length_filter_le _ _
  simp only [active]
  omega

/-- Where every id exists the whole selection is active. -/
theorem active_of_forall {selected existing : List String} (h : ∀ id ∈ selected, id ∈ existing) :
    active selected existing = ⟨selected, 0⟩ := by
  have hall : selected.filter existing.contains = selected := by
    refine List.filter_eq_self.mpr ?_
    intro id hid
    simpa using h id hid
  simp [active, hall]

theorem active_apply_prune (selected existing : List String) :
    active ((Step.prune existing).apply selected) existing =
      ⟨(Step.prune existing).apply selected, 0⟩ := by
  refine active_of_forall ?_
  intro id hid
  rw [Step.apply_prune, List.mem_filter] at hid
  simpa using hid.2

/-! ## 4. Runs -/

/-- The selection after steps one behind the other. -/
def run (selected : List String) (steps : List Step) : List String :=
  steps.foldl Step.apply selected

theorem run_concat (selected : List String) (steps : List Step) (step : Step) :
    run selected (steps ++ [step]) = step.apply (run selected steps) := by
  simp [run]

theorem nodup_run {selected : List String} (h : selected.Nodup) (steps : List Step) :
    (run selected steps).Nodup := by
  induction steps generalizing selected with
  | nil => exact h
  | cons step rest ih => exact ih (Step.nodup_apply h step)

theorem toFinset_run (selected : List String) (steps : List Step) :
    (run selected steps).toFinset = steps.foldl Step.onSet selected.toFinset := by
  induction steps generalizing selected with
  | nil => rfl
  | cons step rest ih =>
    rw [List.foldl_cons, ← Step.toFinset_apply]
    exact ih (step.apply selected)

/-- **A selection is an ordered set.** Whatever steps a selection without repeats goes through, it
has none in the end; its ids are those that union, difference and intersection make of the ids
before; and every step on the way keeps the ids that stay in their order and puts new ones behind
them as they are visible. Pruned to the ids of records, the selection is all active and nothing is
missing. Of any selection each id is active or missing. -/
theorem run_orderedSet {selected : List String} (h : selected.Nodup) (steps : List Step) :
    (run selected steps).Nodup ∧
      (run selected steps).toFinset = steps.foldl Step.onSet selected.toFinset ∧
      (∀ before step after, steps = before ++ step :: after →
        step.Orders (run selected before) (run selected (before ++ [step]))) ∧
      (∀ {α : Type} (id : α → String) (records : List α),
        active (run selected (steps ++ [.prune (records.map id)])) (records.map id) =
          ⟨run selected (steps ++ [.prune (records.map id)]), 0⟩) ∧
      ∀ other existing : List String,
        (active other existing).ids.length + (active other existing).missing = other.length := by
  refine ⟨nodup_run h steps, toFinset_run selected steps, ?_, ?_, length_active⟩
  · intro before step after _
    rw [run_concat]
    exact Step.orders_apply _ step
  · intro α id records
    rw [run_concat]
    exact active_apply_prune _ _

/-- Ids that are visible twice, or selected already, or deselected and selected again. -/
def crossedSteps : List Step :=
  [.enable ["c", "a", "d", "c"], .disable [], .disable ["b", "x", "b"], .enable ["b", "c"],
    .prune ["b", "d", "a"]]

theorem run_orderedSet_crossed :
    ["b", "a"].Nodup ∧ (run ["b", "a"] crossedSteps).Nodup ∧
      (run ["b", "a"] crossedSteps).toFinset = {"a", "b", "d"} ∧
      (Step.enable ["b", "c"]).Orders ["a", "c", "d"] ["a", "c", "d", "b"] ∧
      active (run ["b", "a"] (crossedSteps ++ [.prune ["d", "a"]])) ["d", "a"] =
        ⟨["a", "d"], 0⟩ := by
  have hstart : ["b", "a"].Nodup := by decide
  obtain ⟨hnodup, hset, horder, hactive, -⟩ := run_orderedSet hstart crossedSteps
  refine ⟨hstart, hnodup, hset.trans (by decide +kernel), ?_, ?_⟩
  · exact horder (crossedSteps.take 3) _ _ rfl
  · exact hactive id ["d", "a"]

end Selection

end Recall
