/-
Recall.Proofs.Saved.Edit — an edited list of saved searches is an ordered map.

A list of searches is read in two ways: as the order of its ids (`ids`) and as the map from ids to
searches (`lookup`). With distinct ids there is nothing else in it (`filterMap_lookup_ids`), so an
edit is known when both are known: what it does to the map (`Step.onMap`) and what it does to the
order (`Step.Reorders`). The map side needs no distinct ids but for sorting, because every edit finds
its search by the first one with the id, and so does `lookup`.

Edits that replace a search all go through `replaceFirst?`, so there is one lemma on each side for
them (`lookup_replaced`, `ids_replaced`). One step is `lookup_apply` and `reorders_apply`; a run of
steps is `run_orderedMap`.
-/
import Mathlib.Logic.Function.Basic
import Recall.Proofs.Saved.Stored
import Recall.Saved.Edit

namespace Recall

namespace Saved

/-! ## 1. Order and map -/

/-- The ids of a list of searches, in order. -/
def ids (searches : List SavedSearch) : List String :=
  searches.map SavedSearch.id

/-- A map from ids to searches. -/
abbrev Lookup := String → Option SavedSearch

/-- A list of searches as a map; of equal ids the first counts. -/
def lookup (searches : List SavedSearch) : Lookup :=
  fun id => find? id searches

@[simp] theorem ids_cons (s : SavedSearch) (r : List SavedSearch) : ids (s :: r) = s.id :: ids r :=
  rfl

/-- A search in front hides what the rest has under its id. -/
theorem lookup_cons (s : SavedSearch) (r : List SavedSearch) :
    lookup (s :: r) = Function.update (lookup r) s.id (some s) := by
  funext id
  by_cases h : s.id = id
  · subst h
    simp [lookup, find?]
  · have hne : id ≠ s.id := fun heq => h heq.symm
    simp [lookup, find?, h, Function.update_of_ne hne]

theorem lookup_eq_none_iff {id : String} {searches : List SavedSearch} :
    lookup searches id = none ↔ id ∉ ids searches := by
  simp [lookup, find?, ids]

theorem lookup_id_of_mem {s : SavedSearch} {searches : List SavedSearch} (h : (ids searches).Nodup)
    (hs : s ∈ searches) : lookup searches s.id = some s := by
  induction searches with
  | nil => cases hs
  | cons t r ih =>
    rw [ids_cons, List.nodup_cons] at h
    rw [lookup_cons]
    rcases List.mem_cons.mp hs with rfl | hmem
    · exact Function.update_self _ _ _
    · have hne : s.id ≠ t.id := by
        intro heq
        exact h.1 (heq ▸ List.mem_map_of_mem hmem)
      rw [Function.update_of_ne hne, ih h.2 hmem]

/-- Order and map together are the whole list. -/
theorem filterMap_lookup_ids {searches : List SavedSearch} (h : (ids searches).Nodup) :
    (ids searches).filterMap (lookup searches) = searches := by
  have hself : ∀ s ∈ searches, (lookup searches ∘ SavedSearch.id) s = some s := by
    intro s hs
    exact lookup_id_of_mem h hs
  rw [ids, List.filterMap_map, List.filterMap_congr hself, List.filterMap_some]

/-- The order does not matter to the map. -/
theorem lookup_perm {l m : List SavedSearch} (h : l.Perm m) (hids : (ids l).Nodup) :
    lookup l = lookup m := by
  induction h with
  | nil => rfl
  | cons s _ ih =>
    rw [ids_cons, List.nodup_cons] at hids
    rw [lookup_cons, lookup_cons, ih hids.2]
  | swap s t r =>
    have hne : s.id ≠ t.id := by
      intro heq
      simp [heq] at hids
    simp only [lookup_cons]
    exact Function.update_comm hne _ _ _
  | trans hlm _ ihl ihm =>
    exact (ihl hids).trans (ihm ((hlm.map SavedSearch.id).nodup_iff.mp hids))

/-! ## 2. Replacing -/

section Replacing

variable {id : String} {f : SavedSearch → SavedSearch} {searches new : List SavedSearch}

theorem replaceFirst?_eq_none_iff : replaceFirst? id f searches = none ↔ id ∉ ids searches := by
  induction searches with
  | nil => simp [replaceFirst?, ids]
  | cons s r ih =>
    by_cases h : s.id = id
    · simp [replaceFirst?, h]
    · have hne : id ≠ s.id := fun heq => h heq.symm
      simp [replaceFirst?, h, hne, ih]

theorem mem_ids_of_replaceFirst? (h : replaceFirst? id f searches = some new) :
    id ∈ ids searches := by
  by_contra hout
  rw [replaceFirst?_eq_none_iff.mpr hout] at h
  cases h

variable (hf : ∀ s, s.id = id → (f s).id = id)

include hf

/-- A search that is replaced by one with its id keeps its place. -/
theorem ids_of_replaceFirst? (h : replaceFirst? id f searches = some new) :
    ids new = ids searches := by
  induction searches generalizing new with
  | nil => simp [replaceFirst?] at h
  | cons s r ih =>
    by_cases hs : s.id = id
    · simp only [replaceFirst?, hs, if_true, Option.some.injEq] at h
      subst h
      simp [hs, hf s hs]
    · simp only [replaceFirst?, hs, if_false, Option.map_eq_some_iff] at h
      obtain ⟨t, ht, rfl⟩ := h
      simp [ih ht]

theorem lookup_of_replaceFirst? (h : replaceFirst? id f searches = some new) :
    lookup new = Function.update (lookup searches) id ((lookup searches id).map f) := by
  induction searches generalizing new with
  | nil => simp [replaceFirst?] at h
  | cons s r ih =>
    by_cases hs : s.id = id
    · simp only [replaceFirst?, hs, if_true, Option.some.injEq] at h
      subst h
      simp only [lookup_cons, hf s hs, hs, Function.update_self, Option.map_some,
        Function.update_idem]
    · simp only [replaceFirst?, hs, if_false, Option.map_eq_some_iff] at h
      obtain ⟨t, ht, rfl⟩ := h
      have hne : id ≠ s.id := fun heq => hs heq.symm
      rw [lookup_cons, lookup_cons, ih ht, Function.update_of_ne hne]
      exact Function.update_comm hne _ _ _

/-- The list after a replacement that leaves a list without the id as it is. -/
theorem ids_replaced : ids ((Edit.ofOption (replaceFirst? id f searches)).get searches) =
    ids searches := by
  cases h : replaceFirst? id f searches with
  | none => rfl
  | some new => exact ids_of_replaceFirst? hf h

theorem lookup_replaced : lookup ((Edit.ofOption (replaceFirst? id f searches)).get searches) =
    Function.update (lookup searches) id ((lookup searches id).map f) := by
  cases h : replaceFirst? id f searches with
  | none =>
    have hnone : lookup searches id = none :=
      lookup_eq_none_iff.mpr (replaceFirst?_eq_none_iff.mp h)
    simp only [Edit.ofOption, Edit.get_unchanged, hnone, Option.map_none]
    rw [← hnone, Function.update_eq_self]
  | some new => exact lookup_of_replaceFirst? hf h

end Replacing

/-! ## 3. Edits -/

theorem lookup_upsert (searches : List SavedSearch) (s : SavedSearch) :
    lookup (upsert searches s) = Function.update (lookup searches) s.id (some s) := by
  rw [upsert]
  cases h : replaceFirst? s.id (fun _ => s) searches with
  | none => exact lookup_cons s searches
  | some new =>
    have hfound : lookup searches s.id ≠ none := by
      rw [Ne, lookup_eq_none_iff, not_not]
      exact mem_ids_of_replaceFirst? h
    obtain ⟨t, ht⟩ := Option.ne_none_iff_exists'.mp hfound
    have hnew := lookup_of_replaceFirst? (fun _ _ => rfl) h
    rwa [ht, Option.map_some] at hnew

theorem ids_upsert (searches : List SavedSearch) (s : SavedSearch) :
    ids (upsert searches s) = if s.id ∈ ids searches then ids searches else s.id :: ids searches := by
  rw [upsert]
  cases h : replaceFirst? s.id (fun _ => s) searches with
  | none => rw [if_neg (replaceFirst?_eq_none_iff.mp h), Option.getD_none, ids_cons]
  | some new =>
    rw [if_pos (mem_ids_of_replaceFirst? h)]
    exact ids_of_replaceFirst? (fun _ _ => rfl) h

/-- The search under another name since a time; a blank name or its own is no other name. -/
def renamed (newName now : String) (s : SavedSearch) : SavedSearch :=
  if Text.isBlank newName ∨ s.name = cleanName newName then s
  else { s with name := cleanName newName, updatedAt := now }

theorem cleanName_eq_empty_iff {name : String} :
    cleanName name = "" ↔ Text.isBlank name = true := by
  rw [← isBlank_cleanName]
  constructor
  · intro h
    rw [h]
    decide
  · intro h
    have hclean : cleanName (cleanName name) = cleanName name := cleanName_cleanName name
    rw [← hclean, cleanName, Text.collapse, Chars.collapse, Chars.words_eq_nil_iff.mpr h]
    rfl

theorem ids_rename (searches : List SavedSearch) (id newName now : String) :
    ids ((rename searches id newName now).get searches) = ids searches := by
  rw [rename]
  split
  · rfl
  · exact ids_replaced fun s hs => hs

theorem lookup_rename (searches : List SavedSearch) (id newName now : String) :
    lookup ((rename searches id newName now).get searches) =
      Function.update (lookup searches) id ((lookup searches id).map (renamed newName now)) := by
  rw [rename]
  simp only [cleanName_eq_empty_iff]
  split
  · rename_i h
    -- Nothing is to be done, and the search, if there is one, is not given another name.
    have hself : (lookup searches id).map (renamed newName now) = lookup searches id := by
      cases hs : lookup searches id with
      | none => rfl
      | some s =>
        have hname : Text.isBlank newName = true ∨ s.name = cleanName newName := by
          rw [show find? id searches = some s from hs] at h
          simpa using h
        rw [Option.map_some, renamed, if_pos hname]
    rw [hself, Function.update_eq_self]
    rfl
  · rename_i h
    refine Eq.trans (lookup_replaced fun _ hs => hs) ?_
    congr 1
    cases hs : lookup searches id with
    | none => rfl
    | some s =>
      have hname : ¬ (Text.isBlank newName = true ∨ s.name = cleanName newName) := by
        rw [show find? id searches = some s from hs] at h
        simpa using h
      rw [Option.map_some, Option.map_some, renamed, if_neg hname]

/-- The search with its pin set the other way at a time. -/
def repinned (now : String) (s : SavedSearch) : SavedSearch :=
  { s with pinned := !s.pinned, updatedAt := now }

theorem ids_togglePin (searches : List SavedSearch) (id now : String) :
    ids ((togglePin searches id now).get searches) = ids searches :=
  ids_replaced fun _ hs => hs

theorem lookup_togglePin (searches : List SavedSearch) (id now : String) :
    lookup ((togglePin searches id now).get searches) =
      Function.update (lookup searches) id ((lookup searches id).map (repinned now)) :=
  lookup_replaced fun _ hs => hs

/-- Deleting is filtering, also where there is nothing to delete. -/
theorem get_delete (searches : List SavedSearch) (id : String) :
    (delete searches id).get searches = searches.filter fun s => s.id != id := by
  rw [delete]
  split
  · rfl
  · rename_i h
    have hother : ∀ s ∈ searches, (s.id != id) = true := by
      simpa using h
    exact (List.filter_eq_self.mpr hother).symm

theorem ids_delete (searches : List SavedSearch) (id : String) :
    ids ((delete searches id).get searches) = (ids searches).filter (· != id) := by
  rw [get_delete, ids, ids, List.filter_map]
  rfl

theorem lookup_delete (searches : List SavedSearch) (id : String) :
    lookup ((delete searches id).get searches) = Function.update (lookup searches) id none := by
  rw [get_delete]
  induction searches with
  | nil => exact (Function.update_eq_self id (lookup [])).symm
  | cons s r ih =>
    by_cases hs : s.id = id
    · rw [List.filter_cons_of_neg (by simp [hs]), ih, lookup_cons, hs, Function.update_idem]
    · rw [List.filter_cons_of_pos (by simp [hs]), lookup_cons, ih, lookup_cons]
      exact Function.update_comm (fun heq => hs heq.symm) _ _ _

theorem sort_perm (searches : List SavedSearch) : (sort searches).Perm searches :=
  List.mergeSort_perm searches le

/-! ## 4. Steps -/

/-- A step of editing a list of saved searches. -/
inductive Step where
  | upsert (s : SavedSearch)
  | rename (id newName now : String)
  | togglePin (id now : String)
  | delete (id : String)
  | sort
  deriving DecidableEq, Repr

namespace Step

/-- The list after a step. -/
def apply (searches : List SavedSearch) : Step → List SavedSearch
  | upsert s => Saved.upsert searches s
  | rename id newName now => (Saved.rename searches id newName now).get searches
  | togglePin id now => (Saved.togglePin searches id now).get searches
  | delete id => (Saved.delete searches id).get searches
  | sort => Saved.sort searches

/-- The map after a step: one id has another value, or none has. -/
def onMap (m : Lookup) : Step → Lookup
  | upsert s => Function.update m s.id (some s)
  | rename id newName now => Function.update m id ((m id).map (renamed newName now))
  | togglePin id now => Function.update m id ((m id).map (repinned now))
  | delete id => Function.update m id none
  | sort => m

/-- How the ids may stand after a step. Only sorting moves ids that stay; a new id comes first. -/
def Reorders (before after : List String) : Step → Prop
  | upsert s => after = if s.id ∈ before then before else s.id :: before
  | rename _ _ _ => after = before
  | togglePin _ _ => after = before
  | delete id => after = before.filter (· != id)
  | sort => after.Perm before

theorem nodup_of_reorders {before after : List String} {step : Step}
    (h : step.Reorders before after) (hbefore : before.Nodup) : after.Nodup := by
  cases step with
  | upsert s =>
    obtain rfl := h
    split
    · exact hbefore
    · rename_i hnew
      exact List.nodup_cons.mpr ⟨hnew, hbefore⟩
  | rename => exact h ▸ hbefore
  | togglePin => exact h ▸ hbefore
  | delete id => exact h ▸ hbefore.filter _
  | sort => exact h.nodup_iff.mpr hbefore

theorem reorders_apply (searches : List SavedSearch) (step : Step) :
    step.Reorders (ids searches) (ids (step.apply searches)) := by
  cases step with
  | upsert s => exact ids_upsert searches s
  | rename id newName now => exact ids_rename searches id newName now
  | togglePin id now => exact ids_togglePin searches id now
  | delete id => exact ids_delete searches id
  | sort => exact (sort_perm searches).map SavedSearch.id

theorem nodup_ids_apply {searches : List SavedSearch} (h : (ids searches).Nodup) (step : Step) :
    (ids (step.apply searches)).Nodup :=
  nodup_of_reorders (reorders_apply searches step) h

/-- A step on the list is a step on the map. -/
theorem lookup_apply {searches : List SavedSearch} (h : (ids searches).Nodup) (step : Step) :
    lookup (step.apply searches) = step.onMap (lookup searches) := by
  cases step with
  | upsert s => exact lookup_upsert searches s
  | rename id newName now => exact lookup_rename searches id newName now
  | togglePin id now => exact lookup_togglePin searches id now
  | delete id => exact lookup_delete searches id
  | sort => exact (lookup_perm (sort_perm searches).symm h).symm

end Step

/-! ## 5. Runs -/

/-- The list after steps one behind the other. -/
def run (searches : List SavedSearch) (steps : List Step) : List SavedSearch :=
  steps.foldl Step.apply searches

theorem run_concat (searches : List SavedSearch) (steps : List Step) (step : Step) :
    run searches (steps ++ [step]) = step.apply (run searches steps) := by
  rw [run, List.foldl_append]
  rfl

theorem nodup_ids_run {searches : List SavedSearch} (h : (ids searches).Nodup) (steps : List Step) :
    (ids (run searches steps)).Nodup := by
  induction steps generalizing searches with
  | nil => exact h
  | cons step rest ih => exact ih (Step.nodup_ids_apply h step)

theorem lookup_run {searches : List SavedSearch} (h : (ids searches).Nodup) (steps : List Step) :
    lookup (run searches steps) = steps.foldl Step.onMap (lookup searches) := by
  induction steps generalizing searches with
  | nil => rfl
  | cons step rest ih =>
    rw [List.foldl_cons, ← Step.lookup_apply h step]
    exact ih (Step.nodup_ids_apply h step)

/-- However a list of searches with distinct ids is edited, its ids stay distinct, it is the map that
the same edits make of the map it was, and every edit on the way leaves the ids in the order that it
may. There is nothing in the list beside the map and the order. -/
theorem run_orderedMap {searches : List SavedSearch} (h : (ids searches).Nodup)
    (steps : List Step) :
    (ids (run searches steps)).Nodup ∧
      lookup (run searches steps) = steps.foldl Step.onMap (lookup searches) ∧
      (∀ before step after, steps = before ++ step :: after →
        step.Reorders (ids (run searches before)) (ids (run searches (before ++ [step])))) ∧
      (ids (run searches steps)).filterMap (lookup (run searches steps)) = run searches steps := by
  have hnodup := nodup_ids_run h steps
  refine ⟨hnodup, lookup_run h steps, ?_, filterMap_lookup_ids hnodup⟩
  intro before step after _
  rw [run_concat]
  exact Step.reorders_apply _ step

/-- Every kind of step, on the two searches of `assorted`: the first is renamed to what it is called
but for its blanks, which is nothing, and deleted in the end; the second is pinned and unpinned. -/
def assortedSteps : List Step :=
  [.rename "due" " Due ·  this week " "t1", .upsert { id := "new", name := "New" },
    .togglePin "σ-2" "t2", .rename "σ-2" "two  words" "t3", .togglePin "σ-2" "t4", .delete "due",
    .delete "absent"]

theorem run_orderedMap_assorted :
    (ids assorted).Nodup ∧ (ids (run assorted (assortedSteps ++ [.sort]))).Nodup ∧
      lookup (run assorted (assortedSteps ++ [.sort])) "due" = none ∧
      lookup (run assorted (assortedSteps ++ [.sort])) "σ-2" =
        some { id := "σ-2", name := "two words", createdAt := "0001-01-01T00:00:00.000Z",
               updatedAt := "t4" } ∧
      (ids (run assorted (assortedSteps ++ [.sort]))).Perm ["new", "σ-2"] := by
  have hids : (ids assorted).Nodup := by decide
  obtain ⟨hnodup, hmap, horder, -⟩ := run_orderedMap hids (assortedSteps ++ [.sort])
  have hbefore : ids (run assorted assortedSteps) = ["new", "σ-2"] := by decide +kernel
  have hsorted := horder assortedSteps .sort [] rfl
  rw [hbefore] at hsorted
  rw [hmap]
  exact ⟨hids, hnodup, by decide +kernel, by decide +kernel, hsorted⟩

end Saved

end Recall
