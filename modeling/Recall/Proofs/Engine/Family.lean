/-
Recall.Proofs.Engine.Family — operators that a kind does not support.

A kind of record is judged by the operators of the families that it supports. Those of the other
families are not passed over: one of them is enough to reject every record of the kind. `accepted_iff`
says this for all kinds at once. A test of a family that is not supported is made as well, but it cannot
fail where the family is not used (`meets_of_not_usedBy`), so it does not show.

`misscoped_empty` carries this through a search. Whatever the dataset holds, the group of a kind is empty
when the query uses an operator that the kind does not support, asked for or excluded, or when it asks
for another kind.
-/
import Recall.Proofs.Engine.Scope

namespace Recall

/-! ## 1. Families in use -/

namespace Family

variable {o : Operators}

theorem mem_all (f : Family) : f ∈ all := by
  cases f <;> decide

theorem has_usedBy_iff : has.usedBy o = true ↔
    o.hasNote = true ∨ o.notHasNote = true ∨ o.hasCitation = true ∨ o.notHasCitation = true := by
  simp [usedBy, Operators.usesHas, or_assoc]

theorem tags_usedBy_iff : tags.usedBy o = true ↔ o.tags ≠ [] ∨ o.notTags ≠ [] := by
  simp [usedBy, Operators.usesTags]

theorem space_usedBy_iff : space.usedBy o = true ↔ o.space ≠ none ∨ o.spaceId ≠ none := by
  simp [usedBy, Operators.usesSpace, Option.isSome_iff_ne_none]

theorem states_usedBy_iff : states.usedBy o = true ↔ o.states ≠ [] ∨ o.notStates ≠ [] := by
  simp [usedBy, Operators.usesStates]

end Family

/-! ## 2. What a kind is judged by -/

namespace Entry

/-- Whether an entry is as the operators of a family ask for. -/
def meets (o : Operators) (e : Entry) : Family → Bool
  | .has => e.hasFacets o
  | .tags => e.hasTags o
  | .space => e.inSpace o
  | .states => e.hasStates o

/-- Where nothing is asked for, every entry is as asked for. -/
theorem meets_of_not_usedBy {o : Operators} {f : Family} (h : f.usedBy o = false) (e : Entry) :
    e.meets o f = true := by
  cases f with
  | has =>
    simp only [Family.usedBy, Operators.usesHas, Bool.or_eq_false_iff] at h
    simp [meets, hasFacets, facetAllowed, h]
  | tags =>
    simp only [Family.usedBy, Operators.usesTags, Bool.or_eq_false_iff, Bool.not_eq_false',
      List.isEmpty_iff] at h
    simp [meets, hasTags, h]
  | space =>
    have hspace : o.usesSpace = false := h
    simp [meets, inSpace, hspace]
  | states =>
    simp only [Family.usedBy, Operators.usesStates, Bool.or_eq_false_iff, Bool.not_eq_false',
      List.isEmpty_iff] at h
    simp [meets, hasStates, h]

theorem inScope_iff {o : Operators} {e : Entry} : e.inScope o = true ↔
    (∀ name, o.kind = some name → name = e.kind.name) ∧
      ∀ f : Family, f.usedBy o = true → e.kind.supports f = true := by
  rw [inScope, Bool.and_eq_true, List.all_eq_true]
  refine and_congr ?_ ?_
  · cases o.kind <;> simp
  · constructor
    · intro h f hf
      simpa [hf] using h f (Family.mem_all f)
    · intro h f _
      cases hf : f.usedBy o
      · rfl
      · simp [h f hf]

/-- An entry is accepted by its kind, its instant and its text, by the operators of the families that
its kind supports, and because none of the others is used. -/
theorem accepted_iff {q : Query} {window : String} {now : Int} {e : Entry} :
    e.accepted q window now = true ↔
      (∀ name, q.operators.kind = some name → name = e.kind.name) ∧
      Window.admits window e.instant now = true ∧ q.needle.matchesLowered e.combined = true ∧
      ∀ f : Family, if e.kind.supports f then e.meets q.operators f = true
        else f.usedBy q.operators = false := by
  simp only [accepted, Bool.and_eq_true, inScope_iff]
  constructor
  · rintro ⟨⟨⟨⟨⟨⟨⟨hkind, hscope⟩, hwindow⟩, hmatches⟩, hspace⟩, htags⟩, hfacets⟩, hstates⟩
    refine ⟨hkind, hwindow, hmatches, ?_⟩
    intro f
    split
    · cases f with
      | has => exact hfacets
      | tags => exact htags
      | space => exact hspace
      | states => exact hstates
    · rename_i hunsupported
      cases hf : f.usedBy q.operators
      · rfl
      · exact absurd (hscope f hf) hunsupported
  · rintro ⟨hkind, hwindow, hmatches, hfamilies⟩
    have hmeets : ∀ f, e.meets q.operators f = true := by
      intro f
      have hf := hfamilies f
      split at hf
      · exact hf
      · exact meets_of_not_usedBy hf e
    have hscope : ∀ f : Family, f.usedBy q.operators = true → e.kind.supports f = true := by
      intro f hused
      have hf := hfamilies f
      split at hf
      · assumption
      · simp [hused] at hf
    exact ⟨⟨⟨⟨⟨⟨⟨hkind, hscope⟩, hwindow⟩, hmatches⟩, hmeets .space⟩, hmeets .tags⟩, hmeets .has⟩,
      hmeets .states⟩

end Entry

/-! ## 3. Empty groups -/

/-- The results have nothing of a kind. -/
def Results.Lacks (r : Results) (kind : Kind) : Prop :=
  r.group? kind.name = some ⟨kind, 0, []⟩

instance (r : Results) (kind : Kind) : Decidable (r.Lacks kind) :=
  inferInstanceAs (Decidable (r.group? kind.name = some ⟨kind, 0, []⟩))

namespace Engine

variable {settings : Settings} {d : Dataset} {rq : Request} {kind : Kind}

/-- Where no entry of a kind is accepted the group is empty. -/
theorem lacks_of_rejected (h : ∀ e ∈ entries d kind, ¬ e.accepted (asked settings d rq)
    (wordOr settings.window rq.window) rq.now = true) : (search settings d rq).Lacks kind := by
  have hnone : found settings d rq kind = [] := by
    refine List.filter_eq_nil_iff.mpr ?_
    intro x hx
    simp [h x.1 (List.fst_mem_of_mem_zipIdx hx)]
  rw [Results.Lacks, group?_search_eq, best, hnone]
  simp [Ranking.sorted]

/-- One operator that a kind does not support empties its group. -/
theorem lacks_of_usedBy {f : Family} (hused : f.usedBy (asked settings d rq).operators = true)
    (h : kind.supports f = false) : (search settings d rq).Lacks kind := by
  refine lacks_of_rejected ?_
  intro e he haccepted
  have hf := (Entry.accepted_iff.mp haccepted).2.2.2 f
  rw [Entry.kind_of_mem_entries he, h, hused] at hf
  cases hf

theorem lacks_of_kind {name : String} (h : (asked settings d rq).operators.kind = some name)
    (hne : kind.name ≠ name) : (search settings d rq).Lacks kind := by
  refine group?_of_not_inScope ?_
  rw [InScope, h]
  exact hne.symm

/-- **Mis-scoped operators find nothing outside their kinds,** whatever the dataset, the request and the
settings. A query that asks for or excludes a note, a citation or a state finds threads only; one with
tags finds no collections, files or tasks; one with a space or its id finds no collections or files; and
one that asks for a kind finds no other. -/
theorem misscoped_empty (settings : Settings) (d : Dataset) (rq : Request) :
    let r := search settings d rq
    let o := r.query.operators
    (o.hasNote = true ∨ o.notHasNote = true ∨ o.hasCitation = true ∨ o.notHasCitation = true ∨
        o.states ≠ [] ∨ o.notStates ≠ [] →
      ∀ kind ∈ [Kind.space, .collection, .file, .task], r.Lacks kind) ∧
    (o.tags ≠ [] ∨ o.notTags ≠ [] → ∀ kind ∈ [Kind.collection, .file, .task], r.Lacks kind) ∧
    (o.space ≠ none ∨ o.spaceId ≠ none → ∀ kind ∈ [Kind.collection, .file], r.Lacks kind) ∧
    ∀ name, o.kind = some name → ∀ kind : Kind, kind.name ≠ name → r.Lacks kind := by
  intro r o
  have hlacks : ∀ {f : Family}, f.usedBy o = true → ∀ {kind : Kind}, kind.supports f = false →
      r.Lacks kind := fun hused _ h => lacks_of_usedBy hused h
  refine ⟨?_, ?_, ?_, ?_⟩
  · intro h kind hkind
    have hused : Family.has.usedBy o = true ∨ Family.states.usedBy o = true := by
      rw [Family.has_usedBy_iff, Family.states_usedBy_iff]
      simpa only [or_assoc] using h
    rcases hused with hused | hused
    · refine hlacks hused ?_
      revert kind
      decide
    · refine hlacks hused ?_
      revert kind
      decide
  · intro h kind hkind
    refine hlacks (Family.tags_usedBy_iff.mpr h) ?_
    revert kind
    decide
  · intro h kind hkind
    refine hlacks (Family.space_usedBy_iff.mpr h) ?_
    revert kind
    decide
  · intro name hname kind hne
    exact lacks_of_kind hname hne

/-- A dataset with one record of each kind, all of them plans. -/
def fivePlans : Dataset where
  threads := [{ id := "t", question := "plan", tags := ["home"], spaceName := some "Plans" }]
  spaces := [{ id := "s", name := "plan" }]
  collections := [{ id := "c", name := "plan" }]
  files := [{ id := "f", name := "plan" }]
  tasks := [{ id := "k", name := "plan", spaceName := some "Plans" }]

/-- Without operators all five are found. An excluded state or tag leaves kinds out although no record
is in the state or has the tag, and so do a space and a kind that are asked for. -/
theorem misscoped_empty_fivePlans :
    (search {} fivePlans { raw := "plan" }).groups.map Group.total = [1, 1, 1, 1, 1] ∧
      ((search {} fivePlans { raw := "plan -is:pinned" }).query.operators.notStates ≠ [] ∧
        (search {} fivePlans { raw := "plan -is:pinned" }).Lacks .space) ∧
      ((search {} fivePlans { raw := "plan -tag:work" }).query.operators.notTags ≠ [] ∧
        (search {} fivePlans { raw := "plan -tag:work" }).Lacks .task) ∧
      ((search {} fivePlans { raw := "plan space:plans" }).query.operators.space ≠ none ∧
        (search {} fivePlans { raw := "plan space:plans" }).Lacks .file) ∧
      (search {} fivePlans { raw := "plan in:tasks" }).query.operators.kind = some "task" ∧
        (search {} fivePlans { raw := "plan in:tasks" }).Lacks .thread := by
  have hstates : (search {} fivePlans { raw := "plan -is:pinned" }).query.operators.notStates ≠ [] := by
    decide +kernel
  have htags : (search {} fivePlans { raw := "plan -tag:work" }).query.operators.notTags ≠ [] := by
    decide +kernel
  have hspace : (search {} fivePlans { raw := "plan space:plans" }).query.operators.space ≠ none := by
    decide +kernel
  have hkind : (search {} fivePlans { raw := "plan in:tasks" }).query.operators.kind =
      some "task" := by
    decide +kernel
  refine ⟨by decide +kernel, ⟨hstates, ?_⟩, ⟨htags, ?_⟩, ⟨hspace, ?_⟩, hkind, ?_⟩
  · exact (misscoped_empty {} fivePlans _).1 (by simp [hstates]) .space (by decide)
  · exact (misscoped_empty {} fivePlans _).2.1 (.inr htags) .task (by decide)
  · exact (misscoped_empty {} fivePlans _).2.2.1 (.inl hspace) .file (by decide)
  · exact (misscoped_empty {} fivePlans _).2.2.2 "task" hkind .thread (by decide)

end Engine

end Recall
