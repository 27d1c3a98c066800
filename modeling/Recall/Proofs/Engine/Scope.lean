/-
Recall.Proofs.Engine.Scope — asking for a kind in the query or by the filter.

A kind can be asked for in two ways: by an operator in front of the query and by the caller's filter.
The operator counts more, and it is seen twice, once when kinds are taken into scope and once more by
each entry. `type_eq_filter` says that the two ways come to the same: the kinds that are not asked for
have empty groups, and the group of the kind that is has what it has in a search of all kinds.

Whatever stands behind the operator is read as if it stood alone (`terms_forKind`): the operator is a
plain text, so its quotes do not change whether those behind it are even in number, and with an odd
number it is a word of its own. A group depends on the needle and on which entries are found and on
nothing else of the query (`group?_congr`), and the operator changes neither.
-/
import Recall.Proofs.Engine.Best
import Recall.Proofs.Query.Merge

namespace Recall

/-! ## 1. Typing a kind -/

namespace Query

/-- A query with the operator for a kind in front. -/
def forKind (k : Kind) (raw : String) : String :=
  "type:" ++ k.plural ++ " " ++ raw

theorem terms_forKind (k : Kind) (raw : String) : terms (forKind k raw) = .kind k :: terms raw := by
  have hplain : Chars.Plain ("type:" ++ k.plural).toList := by
    cases k <;> decide
  have hne : ("type:" ++ k.plural).toList ≠ [] := by simp
  have hterm : Term.ofToken ("type:" ++ k.plural) = .kind k := by
    cases k <;> decide +kernel
  rw [terms, Token.tokens, forKind, Token.toList_append_space, Token.split_plain_append hne hplain,
    List.map_cons, List.map_cons, String.ofList_toList, hterm, terms, Token.tokens]

/-- The operator changes the kind that is asked for and nothing else. -/
theorem parse_forKind {raw : String} {verbatim : Bool} (k : Kind)
    (h : (parse raw verbatim).operators.kind = none) :
    parse (forKind k raw) verbatim =
      { parse raw verbatim with
        operators := { (parse raw verbatim).operators with kind := some k.name } } := by
  have hoperators : Operators.ofTerms (.kind k :: terms raw) =
      { Operators.ofTerms (terms raw) with kind := some k.name } := by
    rw [operators_parse] at h
    rw [Operators.ofTerms_cons]
    simp [Operators.merge, Operators.add, h]
  have htext : textOf (.kind k :: terms raw) = textOf (terms raw) := rfl
  simp only [parse, terms_forKind, hoperators, htext]

end Query

/-! ## 2. Groups of two requests -/

namespace Entry

/-- An entry of the kind that is asked for does not see that it is. -/
theorem accepted_kind {e : Entry} {q : Query} (h : q.operators.kind = none) (window : String)
    (now : Int) :
    e.accepted { q with operators := { q.operators with kind := some e.kind.name } } window now =
      e.accepted q window now := by
  have hscope : e.inScope { q.operators with kind := some e.kind.name } = e.inScope q.operators := by
    simp only [inScope, h, Option.all_some, Option.all_none, beq_self_eq_true, Family.usedBy,
      Operators.usesHas, Operators.usesTags, Operators.usesSpace, Operators.usesStates]
  simp only [accepted, hscope]
  rfl

theorem kind_of_mem_entries {d : Dataset} {kind : Kind} {e : Entry}
    (h : e ∈ Engine.entries d kind) : e.kind = kind := by
  cases kind <;>
    · obtain ⟨r, -, rfl⟩ := List.mem_map.mp h
      rfl

end Entry

namespace Engine

variable {settings : Settings} {d : Dataset}

/-- The results of a search are known when the group of each kind is. -/
theorem groups_congr {rq rq' : Request} (h : ∀ kind : Kind,
    (search settings d rq).group? kind.name = (search settings d rq').group? kind.name) :
    (search settings d rq).groups = (search settings d rq').groups := by
  refine List.map_congr_left ?_
  intro kind _
  have hgroup := h kind
  rw [group?_search, group?_search] at hgroup
  exact Option.some.inj hgroup

/-- Two requests that differ in query and filter have the same group of a kind when they look for
the same and find the same entries. -/
theorem group?_congr {rq : Request} {raw raw' filter filter' : String} {kind : Kind}
    (hneedle : (asked settings d { rq with raw := raw }).needle =
      (asked settings d { rq with raw := raw' }).needle)
    (hfound : ∀ e ∈ entries d kind,
      (InScope (asked settings d { rq with raw := raw }) filter kind ∧
          e.accepted (asked settings d { rq with raw := raw }) (wordOr settings.window rq.window)
            rq.now = true) ↔
        InScope (asked settings d { rq with raw := raw' }) filter' kind ∧
          e.accepted (asked settings d { rq with raw := raw' }) (wordOr settings.window rq.window)
            rq.now = true) :
    (search settings d { rq with raw := raw, filter := filter }).group? kind.name =
      (search settings d { rq with raw := raw', filter := filter' }).group? kind.name := by
  have hsame : found settings d { rq with raw := raw, filter := filter } kind =
      found settings d { rq with raw := raw', filter := filter' } kind := by
    refine List.filter_congr ?_
    intro x hx
    exact decide_eq_decide.mpr (hfound x.1 (List.fst_mem_of_mem_zipIdx hx))
  have hneedle' : (asked settings d { rq with raw := raw, filter := filter }).needle =
      (asked settings d { rq with raw := raw', filter := filter' }).needle := hneedle
  have hranking : ranking settings d { rq with raw := raw, filter := filter } =
      ranking settings d { rq with raw := raw', filter := filter' } := by
    simp only [ranking, hneedle']
  rw [group?_search_eq, group?_search_eq, best, best, hsame, hranking, hneedle']

/-- A kind that is not in scope has an empty group. -/
theorem group?_of_not_inScope {rq : Request} {kind : Kind}
    (h : ¬ InScope (asked settings d rq) rq.filter kind) :
    (search settings d rq).group? kind.name = some ⟨kind, 0, []⟩ := by
  have hnone : found settings d rq kind = [] := by
    simp [found, h]
  rw [group?_search_eq, best, hnone]
  simp [Ranking.sorted]

/-! ## 3. Scope -/

section Scope

variable {q : Query} {filter : String} {k kind : Kind}

theorem inScope_of_some (h : q.operators.kind = some k.name) :
    InScope q filter kind ↔ k = kind := by
  rw [InScope, h]
  exact Kind.name_injective.eq_iff

theorem inScope_plural (h : q.operators.kind = none) : InScope q k.plural kind ↔ k = kind := by
  have hin : k.plural ∈ Kind.all.map Kind.plural := by
    cases k <;> decide
  rw [InScope, h]
  simp only [hin, true_imp_iff]
  exact Kind.plural_injective.eq_iff

theorem inScope_all (h : q.operators.kind = none) : InScope q "all" kind := by
  rw [InScope, h]
  exact fun hin => absurd hin (by decide)

/-- An entry that is found by the operator for a kind is found by the filter for it. -/
theorem found_kind_iff (h : q.operators.kind = none) {e : Entry} (he : e.kind = kind)
    (window : String) (now : Int) :
    (InScope { q with operators := { q.operators with kind := some k.name } } filter kind ∧
        e.accepted { q with operators := { q.operators with kind := some k.name } } window now =
          true) ↔
      InScope q k.plural kind ∧ e.accepted q window now = true := by
  rw [inScope_of_some rfl, inScope_plural h]
  refine and_congr_right ?_
  intro hk
  rw [hk, ← he, Entry.accepted_kind h]

end Scope

/-- **Asking for a kind in the query is asking for it by the filter.** Let a query set no kind, be its
quotes balanced or not. With the operator for a kind in front it has, under any filter, the groups
that it has under the filter for the kind. The groups of the other kinds are then empty, and the
group of this kind is the one that it has when all kinds are searched. -/
theorem type_eq_filter (settings : Settings) (d : Dataset) (rq : Request) (k : Kind)
    (filter : String) (h : (Query.parse rq.raw).operators.kind = none) :
    (search settings d { rq with raw := Query.forKind k rq.raw, filter := filter }).groups =
        (search settings d { rq with filter := k.plural }).groups ∧
      (∀ kind, kind ≠ k → (search settings d { rq with filter := k.plural }).group? kind.name =
        some ⟨kind, 0, []⟩) ∧
      (search settings d { rq with filter := k.plural }).group? k.name =
        (search settings d { rq with filter := "all" }).group? k.name := by
  have hnone : (asked settings d rq).operators.kind = none := h
  have htyped : asked settings d { rq with raw := Query.forKind k rq.raw } =
      { asked settings d rq with
        operators := { (asked settings d rq).operators with kind := some k.name } } :=
    Query.parse_forKind k hnone
  refine ⟨groups_congr ?_, ?_, ?_⟩
  · intro kind
    refine group?_congr (by rw [htyped]) ?_
    intro e he
    rw [htyped]
    exact found_kind_iff hnone (Entry.kind_of_mem_entries he) _ _
  · intro kind hne
    refine group?_of_not_inScope ?_
    exact fun hin => hne ((inScope_plural hnone).mp hin).symm
  · refine group?_congr rfl ?_
    intro e _
    exact and_congr_left' (iff_of_true ((inScope_plural hnone).mpr rfl) (inScope_all hnone))

/-- A dataset with an open quote in the question of a thread and in the prompt of a task. -/
def openQuotes : Dataset where
  threads := [{ id := "t1", question := "the \"plan b" }]
  tasks := [{ id := "k1", name := "weekly", prompt := "\"plan a" }, { id := "k2", name := "plan" }]

/-- A query with one quote, which is then a character like any other. -/
theorem type_eq_filter_openQuotes :
    (Query.parse "\"plan").operators.kind = none ∧
      (search {} openQuotes { raw := Query.forKind .task "\"plan", filter := "spaces" }).groups =
        (search {} openQuotes { raw := "\"plan", filter := "tasks" }).groups ∧
      (search {} openQuotes { raw := "\"plan", filter := "tasks" }).group? "thread" =
        some ⟨.thread, 0, []⟩ ∧
      (search {} openQuotes { raw := "\"plan", filter := "tasks" }).group? "task" =
        (search {} openQuotes { raw := "\"plan", filter := "all" }).group? "task" ∧
      (search {} openQuotes { raw := "\"plan", filter := "all" }).groups.map Group.total =
        [1, 0, 0, 0, 1] := by
  have hnone : (Query.parse "\"plan").operators.kind = none := by decide +kernel
  obtain ⟨htyped, hothers, hsame⟩ :=
    type_eq_filter {} openQuotes { raw := "\"plan" } .task "spaces" hnone
  exact ⟨hnone, htyped, hothers .thread (by decide), hsame, by decide +kernel⟩

end Engine

end Recall
