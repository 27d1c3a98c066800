/-
Recall.Proofs.Query.Letter — reading a query does not see the case of ASCII letters.

The reading of a query with its letters in lower case is the reading of the query, with the letters
in lower case wherever a typed text is kept (`parse_lowerLetters`). Typed texts are kept in three
places: the words of the free text, and the name and the id of a space, which are lowered no sooner
than they are compared. Keys, kinds, tags, facets, states and switches are lowered when they are
read, and so is what the needle is made of; of these nothing is left to see.

Each step of the reading has its lemma: quotes are counted alike (`quotesFrom_map_toLower`), the text
is cut at the same places (`split_map_toLower`), a token is the same operator (`operator?_map_toLower`),
and operators add up alike (`ofTerms_map_lowerLetters`).
-/
import Recall.Proofs.Query.Merge
import Recall.Proofs.Text.Letter

namespace Recall

open Text (lowerLetters)

/-! ## 1. Tokens -/

namespace Token

theorem quotesFrom_map_toLower (cs : List Char) (escaped : Bool) :
    quotesFrom escaped (cs.map Char.toLower) = quotesFrom escaped cs := by
  induction cs generalizing escaped with
  | nil => rfl
  | cons c r ih =>
    have hquote : c.toLower = '"' ↔ c = '"' := Chars.toLower_eq_iff (by decide)
    have hescape : (c.toLower == '\\') = (c == '\\') := Chars.beq_toLower (by decide)
    simp only [List.map_cons, quotesFrom, hquote, hescape, ih]

theorem noQuoteAhead_map_toLower {cs : List Char} (h : NoQuoteAhead cs) :
    NoQuoteAhead (cs.map Char.toLower) := by
  cases cs with
  | nil => exact h
  | cons c r =>
    have hne : c ≠ '"' := by simpa [NoQuoteAhead] using h
    simpa [NoQuoteAhead, Chars.toLower_eq_iff] using hne

theorem marks_map_toLower (quoted : Bool) (cs : List Char) :
    marks quoted (cs.map Char.toLower) = (marks quoted cs).map (Option.map Char.toLower) := by
  fun_induction marks quoted cs with
  | case1 quoted => rfl
  | case2 quoted r ih => exact congrArg (some '"' :: ·) ih
  | case3 quoted r hesc ih => exact (marks_quote quoted _).trans ih
  | case4 quoted c r hesc hquote hblank ih | case5 quoted c r hesc hquote hblank ih =>
    have hquote' : c.toLower ≠ '"' := fun h => hquote ((Chars.toLower_eq_iff (by decide)).mp h)
    have hahead : c.toLower = '\\' → NoQuoteAhead (r.map Char.toLower) := by
      intro hc
      have hr : NoQuoteAhead r :=
        noQuoteAhead_of_ne_cons fun r' => hesc r' ((Chars.toLower_eq_iff (by decide)).mp hc)
      exact noQuoteAhead_map_toLower hr
    rw [List.map_cons, marks_char hquote' hahead, ih]
    simp [hblank]

theorem split_map_toLower (cs : List Char) :
    split (cs.map Char.toLower) = (split cs).map (List.map Char.toLower) := by
  have hquotes : quotes (cs.map Char.toLower) = quotes cs := quotesFrom_map_toLower cs false
  have hgap : Option.isNone ∘ Option.map Char.toLower = Option.isNone := by
    funext m
    simp
  have hpiece : ∀ piece : List (Option Char), (piece.map (Option.map Char.toLower)).filterMap id =
      (piece.filterMap id).map Char.toLower := by
    intro piece
    simp [List.filterMap_map, List.map_filterMap]
  unfold split
  rw [hquotes]
  split
  · exact Chars.words_map_toLower cs
  · rw [marks_map_toLower, Chars.fields_map, hgap, List.map_map, List.map_map]
    exact List.map_congr_left fun piece _ => hpiece piece

theorem tokens_lowerLetters (raw : String) :
    tokens (lowerLetters raw) = (tokens raw).map lowerLetters := by
  simp [tokens, split_map_toLower, lowerLetters, Function.comp_def]

end Token

/-! ## 2. Terms -/

namespace Term

/-- A term with the letters of the typed text that it keeps in lower case. -/
def lowerLetters : Term → Term
  | .word text => .word (Text.lowerLetters text)
  | .space name => .space (Text.lowerLetters name)
  | .spaceId id => .spaceId (Text.lowerLetters id)
  | t => t

theorem cleanValue_map_toLower (cs : List Char) :
    cleanValue (cs.map Char.toLower) = (cleanValue cs).map Char.toLower := by
  have hquote : ∀ c : Char, (c.toLower == '"') = (c == '"') := by
    intro c
    exact Chars.beq_toLower (by decide)
  rw [cleanValue, Chars.trim_map_toLower, Chars.strip_map hquote, Chars.trim_map_toLower, cleanValue]

theorem ofOperator?_lowerLetters (key : Key) (negated : Bool) (value : String) :
    ofOperator? key negated (Text.lowerLetters value) =
      (ofOperator? key negated value).map lowerLetters := by
  cases key with
  | space | spaceId => cases negated <;> rfl
  | kind =>
    cases negated with
    | true => rfl
    | false => simp [ofOperator?, Text.lower_lowerLetters, lowerLetters, Function.comp_def]
  | tag => simp [ofOperator?, Text.lower_lowerLetters, lowerLetters]
  | has | is | verbatim =>
    simp [ofOperator?, Text.lower_lowerLetters, lowerLetters, Function.comp_def]

/-- The operator with a name for its key and a text behind the colon. -/
def ofParts (negated : Bool) (name rest : List Char) : Option Term :=
  if (cleanValue rest).isEmpty then none
  else (Key.ofName? (String.ofList (Chars.lower name))).bind fun key =>
    ofOperator? key negated (String.ofList (cleanValue rest))

theorem ofParts_map_toLower (negated : Bool) (name rest : List Char) :
    ofParts negated (name.map Char.toLower) (rest.map Char.toLower) =
      (ofParts negated name rest).map lowerLetters := by
  have hvalue : String.ofList (cleanValue (rest.map Char.toLower)) =
      Text.lowerLetters (String.ofList (cleanValue rest)) := by
    rw [cleanValue_map_toLower, Text.lowerLetters, String.toList_ofList]
  unfold ofParts
  rw [hvalue, cleanValue_map_toLower, List.isEmpty_map, Chars.lower_map_toLower]
  split
  · rfl
  · rw [Option.map_bind]
    congr 1
    funext key
    exact ofOperator?_lowerLetters key negated _

theorem operator?_map_toLower (token : List Char) :
    operator? (token.map Char.toLower) = (operator? token).map lowerLetters := by
  have hcolon : (fun c => c != ':') ∘ Char.toLower = fun c => c != ':' := by
    funext c
    exact congrArg (!·) (Chars.beq_toLower (by decide))
  unfold operator?
  rw [List.dropWhile_map, List.takeWhile_map, hcolon]
  cases token.dropWhile (fun c => c != ':') with
  | nil => rfl
  | cons c rest =>
    generalize token.takeWhile (fun c => c != ':') = front
    cases front with
    | nil => exact ofParts_map_toLower false [] rest
    | cons d name =>
      by_cases hd : d = '-'
      · subst hd
        exact ofParts_map_toLower true name rest
      · have hd' : d.toLower ≠ '-' := fun h => hd ((Chars.toLower_eq_iff (by decide)).mp h)
        simpa [hd, hd', ofParts] using ofParts_map_toLower false (d :: name) rest

theorem ofToken_lowerLetters (token : String) :
    ofToken (Text.lowerLetters token) = (ofToken token).lowerLetters := by
  rw [ofToken, ofToken, Text.toList_lowerLetters, operator?_map_toLower]
  cases operator? token.toList <;> rfl

theorem word?_lowerLetters (t : Term) : t.lowerLetters.word? = t.word?.map Text.lowerLetters := by
  cases t <;> rfl

end Term

/-! ## 3. Operators -/

namespace Operators

/-- Operators with the letters of the name and the id of the space in lower case. -/
def lowerLetters (o : Operators) : Operators :=
  { o with space := o.space.map Text.lowerLetters, spaceId := o.spaceId.map Text.lowerLetters }

theorem add_lowerLetters (o : Operators) (t : Term) :
    o.lowerLetters.add t.lowerLetters = (o.add t).lowerLetters := by
  cases t with
  | word | kind | space | spaceId | verbatim => rfl
  | tag negated | is negated => cases negated <;> rfl
  | has negated facet => cases negated <;> cases facet <;> rfl

theorem ofTerms_map_lowerLetters (ts : List Term) :
    ofTerms (ts.map Term.lowerLetters) = (ofTerms ts).lowerLetters := by
  have hfoldl : ∀ o : Operators, (ts.map Term.lowerLetters).foldl add o.lowerLetters =
      (ts.foldl add o).lowerLetters := by
    induction ts with
    | nil => intro o; rfl
    | cons t r ih =>
      intro o
      rw [List.map_cons, List.foldl_cons, List.foldl_cons, add_lowerLetters]
      exact ih (o.add t)
  exact hfoldl {}

end Operators

/-! ## 4. Queries -/

namespace Query

/-- A query that has been read, with the letters of the typed texts that it keeps in lower case. -/
def lowerLetters (q : Query) : Query where
  text := Text.lowerLetters q.text
  needle := q.needle
  operators := q.operators.lowerLetters

theorem terms_lowerLetters (raw : String) :
    terms (Text.lowerLetters raw) = (terms raw).map Term.lowerLetters := by
  simp [terms, Token.tokens_lowerLetters, Term.ofToken_lowerLetters]

theorem textOf_map_lowerLetters (ts : List Term) :
    textOf (ts.map Term.lowerLetters) = Text.lowerLetters (textOf ts) := by
  rw [textOf, textOf, ← Text.join_lowerLetters (by decide +kernel), List.filterMap_map,
    List.map_filterMap]
  congr 1
  exact List.filterMap_congr fun t _ => Term.word?_lowerLetters t

theorem needle_lowerLetters (text : String) :
    Needle.ofText (Text.lowerLetters text) = Needle.ofText text := by
  rw [Needle.ofText, Text.lower_lowerLetters, Needle.ofText]

/-- **Reading does not see the case of letters.** What it keeps of the text that was typed is in the
case in which it was typed, and the rest is the same. -/
theorem parse_lowerLetters (raw : String) (verbatim : Bool) :
    parse (Text.lowerLetters raw) verbatim = (parse raw verbatim).lowerLetters := by
  simp only [parse, lowerLetters, terms_lowerLetters, textOf_map_lowerLetters, needle_lowerLetters,
    Operators.ofTerms_map_lowerLetters]
  rfl

end Query

end Recall
