/-
Recall.Proofs.Query.Merge — two queries in a row ask for what both ask for.

Reading goes from text to tokens, from tokens to terms and from terms to operators, and each step
takes one thing behind another to one thing behind another. For tokens this is `tokens_append`; a
token is read by itself, so the terms follow. Operators are a monoid under `merge`, with the lists
growing, the flags staying on and the later setting counting, and `add` is a merge with one term
(`add_eq_merge`); so what terms ask for is the merge of what each asks for (`ofTerms_append`).

Free text is the rest: a token that is no operator is a word as it was typed (`word?_ofToken`).
-/
import Recall.Proofs.Query.Operator
import Recall.Proofs.Query.Token
import Recall.Query.Basic

namespace Recall

/-! ## 1. Operators are a monoid -/

namespace Operators

theorem empty_merge (o : Operators) : merge {} o = o := by
  simp [merge]

theorem merge_empty (o : Operators) : merge o {} = o := by
  simp [merge]

theorem merge_assoc (a b c : Operators) : merge (merge a b) c = merge a (merge b c) := by
  simp [merge, Option.or_assoc, Bool.or_assoc]

/-- To add a term is to merge what the term asks for by itself. -/
theorem add_eq_merge (o : Operators) (t : Term) : o.add t = o.merge (add {} t) := by
  cases t with
  | word | kind | space | spaceId | verbatim => simp [add, merge]
  | tag negated | is negated => cases negated <;> simp [add, merge]
  | has negated facet => cases negated <;> cases facet <;> simp [add, merge]

theorem foldl_add_eq_merge : ∀ (ts : List Term) (o : Operators),
    ts.foldl add o = o.merge (ofTerms ts)
  | [], o => (merge_empty o).symm
  | t :: r, o => by
      -- What the rest asks for is itself a fold, which starts with the term.
      have hr : ofTerms (t :: r) = (add {} t).merge (ofTerms r) := foldl_add_eq_merge r (add {} t)
      rw [List.foldl_cons, foldl_add_eq_merge r (o.add t), add_eq_merge o t, merge_assoc, hr]

@[simp] theorem ofTerms_nil : ofTerms [] = {} := rfl

theorem ofTerms_append (ts us : List Term) :
    ofTerms (ts ++ us) = (ofTerms ts).merge (ofTerms us) := by
  rw [ofTerms, List.foldl_append, ← ofTerms, foldl_add_eq_merge]

theorem ofTerms_cons (t : Term) (ts : List Term) :
    ofTerms (t :: ts) = (add {} t).merge (ofTerms ts) :=
  foldl_add_eq_merge ts (add {} t)

end Operators

namespace Query

/-! ## 2. Queries -/

/-- The words among tokens: those that are no operators. -/
theorem filterMap_word?_ofToken (ts : List String) :
    (ts.map Term.ofToken).filterMap Term.word? =
      ts.filter fun t => Term.operator? t.toList = none := by
  induction ts with
  | nil => rfl
  | cons t r ih =>
    rw [List.map_cons, List.filterMap_cons, Term.word?_ofToken, ih]
    by_cases h : Term.operator? t.toList = none <;> simp [h]

theorem text_parse (raw : String) (verbatim : Bool) :
    (parse raw verbatim).text = textOf (terms raw) := rfl

theorem operators_parse (raw : String) (verbatim : Bool) :
    (parse raw verbatim).operators = Operators.ofTerms (terms raw) := rfl

/-- The free text consists of the tokens that are no operators. -/
theorem textOf_terms (raw : String) :
    textOf (terms raw) =
      Text.join " " ((Token.tokens raw).filter fun t => Term.operator? t.toList = none) := by
  rw [textOf, terms, filterMap_word?_ofToken]

theorem terms_append {a b : String} (ha : Token.Balanced a) (hb : Token.Balanced b) :
    terms (a ++ " " ++ b) = terms a ++ terms b := by
  rw [terms, Token.tokens_append ha hb, List.map_append, ← terms, ← terms]

theorem text_parse_append {a b : String} (ha : Token.Balanced a) (hb : Token.Balanced b)
    (verbatim : Bool) :
    (parse (a ++ " " ++ b) verbatim).text =
      Text.join " " ([(parse a verbatim).text, (parse b verbatim).text].filter
        fun s => s != "") := by
  simp only [text_parse, textOf_terms, Token.tokens_append ha hb, List.filter_append]
  refine Text.join_join_append ?_ ?_ <;>
  · intro w hw
    exact Token.ne_empty_of_mem_tokens (List.mem_of_mem_filter hw)

theorem operators_parse_append {a b : String} (ha : Token.Balanced a) (hb : Token.Balanced b)
    (verbatim : Bool) :
    (parse (a ++ " " ++ b) verbatim).operators =
      (parse a verbatim).operators.merge (parse b verbatim).operators := by
  rw [operators_parse, terms_append ha hb, Operators.ofTerms_append, operators_parse,
    operators_parse]

/-- A term that asks for nothing may be left out. -/
theorem ofTerms_append_word (ts us : List Term) (w : String) :
    Operators.ofTerms (ts ++ .word w :: us) = Operators.ofTerms (ts ++ us) := by
  rw [Operators.ofTerms_append, Operators.ofTerms_append, Operators.ofTerms_cons]
  exact congrArg _ (Operators.empty_merge _)

/-- **Reading is compositional.** Two queries with balanced quotes, one behind the other with a
space between them, have the tokens of both, the free text of both and the operators of both merged.
In any query a token that is no operator asks for nothing and is a word of the free text as it
stands. -/
theorem parse_compositional :
    (∀ (a b : String) (verbatim : Bool), Token.Balanced a → Token.Balanced b →
      Token.tokens (a ++ " " ++ b) = Token.tokens a ++ Token.tokens b ∧
      (parse (a ++ " " ++ b) verbatim).text =
        Text.join " " ([(parse a verbatim).text, (parse b verbatim).text].filter
          fun s => s != "") ∧
      (parse (a ++ " " ++ b) verbatim).operators =
        (parse a verbatim).operators.merge (parse b verbatim).operators) ∧
    ∀ (raw : String) (verbatim : Bool) (before after : List String) (t : String),
      Token.tokens raw = before ++ t :: after → Term.operator? t.toList = none →
      (parse raw verbatim).operators = Operators.ofTerms ((before ++ after).map Term.ofToken) ∧
      (parse raw verbatim).text = Text.join " "
        ((before.map Term.ofToken).filterMap Term.word? ++ t ::
          (after.map Term.ofToken).filterMap Term.word?) := by
  refine ⟨fun a b verbatim ha hb => ⟨Token.tokens_append ha hb, text_parse_append ha hb verbatim,
    operators_parse_append ha hb verbatim⟩, fun raw verbatim before after t hraw ht => ⟨?_, ?_⟩⟩
  · have hword : Term.ofToken t = .word t := by rw [Term.ofToken, ht]; rfl
    rw [operators_parse, terms, hraw, List.map_append, List.map_cons, hword, ofTerms_append_word,
      List.map_append]
  · rw [text_parse, textOf_terms, hraw, filterMap_word?_ofToken, filterMap_word?_ofToken,
      List.filter_append, List.filter_cons_of_pos (by simp [ht])]

/-- A quoted value, an escaped quote at the seam and a setting that is made twice. -/
theorem parse_compositional_seam :
    Token.Balanced "space:\"Deep Work\" plan is:pinned \\\"" ∧
    Token.Balanced "\\\"b space:x nokey:y -tag:Q" ∧
    (parse ("space:\"Deep Work\" plan is:pinned \\\"" ++ " " ++
      "\\\"b space:x nokey:y -tag:Q")).text = "plan \" \"b nokey:y" ∧
    (parse ("space:\"Deep Work\" plan is:pinned \\\"" ++ " " ++
      "\\\"b space:x nokey:y -tag:Q")).operators =
      { space := some "x", notTags := ["q"], states := ["pinned"] } := by
  have ha : Token.Balanced "space:\"Deep Work\" plan is:pinned \\\"" := by decide +kernel
  have hb : Token.Balanced "\\\"b space:x nokey:y -tag:Q" := by decide +kernel
  obtain ⟨-, htext, hoperators⟩ := parse_compositional.1 _ _ false ha hb
  refine ⟨ha, hb, ?_, ?_⟩
  · rw [htext]
    decide +kernel
  · rw [hoperators]
    decide +kernel

end Query

end Recall
