/-
Recall.Proofs.Engine.Letter — a search does not see the case of ASCII letters.

Reading a query keeps the case of letters in the free text and in the name and the id of a space
(`Query.parse_lowerLetters`). The free text is not looked at again once the needle is made of it, and
names and ids are trimmed and lowered before they are compared (`accepted_lowerLetters`). So a query
and the same query in lower case have the same scope, find the same entries and rank them alike, and
any two queries with the same letters do (`search_sameLetters`).
-/
import Recall.Proofs.Engine.Scope
import Recall.Proofs.Query.Letter

namespace Recall

/-! ## 1. Accepting an entry -/

theorem Operators.usesSpace_lowerLetters (o : Operators) :
    o.lowerLetters.usesSpace = o.usesSpace := by
  simp only [usesSpace, lowerLetters, Option.isSome_map]

namespace Entry

theorem inScope_lowerLetters (e : Entry) (o : Operators) :
    e.inScope o.lowerLetters = e.inScope o := by
  have hfamily : ∀ f : Family, f.usedBy o.lowerLetters = f.usedBy o := by
    intro f
    cases f with
    | space => exact o.usesSpace_lowerLetters
    | has | tags | states => rfl
  simp only [inScope, hfamily]
  rfl

theorem inSpace_lowerLetters (e : Entry) (o : Operators) :
    e.inSpace o.lowerLetters = e.inSpace o := by
  have htrim : ∀ s : String,
      Text.lower (Text.trim (Text.lowerLetters s)) = Text.lower (Text.trim s) := by
    intro s
    rw [Text.trim_lowerLetters, Text.lower_lowerLetters]
  simp only [inSpace, o.usesSpace_lowerLetters]
  simp only [Operators.lowerLetters, Option.any_map, htrim]

theorem accepted_lowerLetters (e : Entry) (q : Query) (window : String) (now : Int) :
    e.accepted q.lowerLetters window now = e.accepted q window now := by
  have hscope : e.inScope q.lowerLetters.operators = e.inScope q.operators :=
    e.inScope_lowerLetters q.operators
  have hspace : e.inSpace q.lowerLetters.operators = e.inSpace q.operators :=
    e.inSpace_lowerLetters q.operators
  unfold accepted
  rw [hscope, hspace]
  rfl

end Entry

/-! ## 2. Searching -/

namespace Engine

/-- The kind that is asked for is kept by its name, whatever the case in which it was typed. -/
theorem inScope_lowerLetters (q : Query) (filter : String) (kind : Kind) :
    InScope q.lowerLetters filter kind ↔ InScope q filter kind :=
  Iff.rfl

variable (settings : Settings) (d : Dataset) (rq : Request)

theorem asked_lowerLetters (raw : String) :
    asked settings d { rq with raw := Text.lowerLetters raw } =
      (asked settings d { rq with raw := raw }).lowerLetters :=
  Query.parse_lowerLetters raw _

theorem needle_asked_lowerLetters (raw : String) :
    (asked settings d { rq with raw := Text.lowerLetters raw }).needle =
      (asked settings d { rq with raw := raw }).needle := by
  rw [asked_lowerLetters, Query.lowerLetters]

theorem scope_lowerLetters (raw : String) :
    (search settings d { rq with raw := Text.lowerLetters raw }).scope =
      (search settings d { rq with raw := raw }).scope := by
  have hkind : (asked settings d { rq with raw := Text.lowerLetters raw }).operators.kind =
      (asked settings d { rq with raw := raw }).operators.kind := by
    rw [asked_lowerLetters, Query.lowerLetters, Operators.lowerLetters]
  exact congrArg (fun kind => kind <|> (Kind.ofFilter? rq.filter).map Kind.name) hkind

theorem groups_lowerLetters (raw : String) :
    (search settings d { rq with raw := Text.lowerLetters raw }).groups =
      (search settings d { rq with raw := raw }).groups := by
  refine groups_congr ?_
  intro kind
  refine group?_congr (needle_asked_lowerLetters settings d rq raw) ?_
  intro e _
  rw [asked_lowerLetters, Entry.accepted_lowerLetters]
  exact and_congr_left' (inScope_lowerLetters _ _ _)

/-- **A search does not see the case of ASCII letters.** Two queries that differ in the case of ASCII
letters and in nothing else, wherever in the query these letters stand, have the same scope and the
same groups: as many records of each kind, and the same hits in the same order with the same scores
and badges. -/
theorem search_sameLetters {raw raw' : String} (h : Text.SameLetters raw raw') :
    (search settings d { rq with raw := raw }).scope =
        (search settings d { rq with raw := raw' }).scope ∧
      (search settings d { rq with raw := raw }).groups =
        (search settings d { rq with raw := raw' }).groups := by
  rw [Text.sameLetters_iff] at h
  constructor
  · rw [← scope_lowerLetters, h, scope_lowerLetters]
  · rw [← groups_lowerLetters, h, groups_lowerLetters]

/-- A pinned thread with capital sigmas in its question and in the name of its space. -/
def pinnedPlan : Thread where
  id := "t1"
  question := "Our PLANΣ"
  spaceName := some "Deep ΣAM"
  pinned := true

/-- What is found when this thread is all there is. -/
def pinnedResults (raw : String) : Results :=
  search {} { threads := [pinnedPlan] } { raw := raw }

theorem search_sameLetters_pinnedPlan :
    Text.SameLetters "TYPE:Threads Space:\"deep ΣA\" is:PINNED pLANΣ"
        "type:tHREADS sPACE:\"DEEP Σa\" IS:pinned PlanΣ" ∧
      (pinnedResults "TYPE:Threads Space:\"deep ΣA\" is:PINNED pLANΣ").scope = some "thread" ∧
      (pinnedResults "TYPE:Threads Space:\"deep ΣA\" is:PINNED pLANΣ").total = 1 ∧
      (pinnedResults "type:tHREADS sPACE:\"DEEP Σa\" IS:pinned PlanΣ").scope = some "thread" ∧
      (pinnedResults "TYPE:Threads Space:\"deep ΣA\" is:PINNED pLANΣ").groups =
        (pinnedResults "type:tHREADS sPACE:\"DEEP Σa\" IS:pinned PlanΣ").groups := by
  have hletters : Text.SameLetters "TYPE:Threads Space:\"deep ΣA\" is:PINNED pLANΣ"
      "type:tHREADS sPACE:\"DEEP Σa\" IS:pinned PlanΣ" := by decide +kernel
  have hscope : (pinnedResults "TYPE:Threads Space:\"deep ΣA\" is:PINNED pLANΣ").scope =
      some "thread" := by decide +kernel
  have hsame := search_sameLetters {} { threads := [pinnedPlan] } { raw := "" } hletters
  exact ⟨hletters, hscope, by decide +kernel, hsame.1.symm.trans hscope, hsame.2⟩

end Engine

end Recall
