/-
Recall.Query.Token — cutting a typed query into tokens.

Blanks separate tokens, except between double quotes, and the quotes themselves are dropped. A
backslash in front of a quote makes it an ordinary character. When the quotes that count are odd in
number they are all ordinary, so that a stray quote cannot swallow the rest of the query.

A query is first read into *marks*: the characters that stay, and a gap for each blank outside
quotes. Tokens are the non-empty pieces between the gaps.
-/
import Recall.Text.Chars

namespace Recall

namespace Token

/-- The number of quotes that are not escaped. A quote is escaped when the character before it is a
backslash; `escaped` says so of the first. -/
def quotesFrom (escaped : Bool) : List Char → Nat
  | [] => 0
  | c :: r => (if c = '"' ∧ escaped = false then 1 else 0) + quotesFrom (c == '\\') r

/-- The number of quotes in a query that are not escaped. -/
def quotes (cs : List Char) : Nat :=
  quotesFrom false cs

/-- What becomes of a query's characters: `some` for one that stays and `none` for a gap. -/
def marks (quoted : Bool) : List Char → List (Option Char)
  | [] => []
  | '\\' :: '"' :: r => some '"' :: marks quoted r
  | c :: r =>
    if c = '"' then marks (!quoted) r
    else if Chars.isBlank c && !quoted then none :: marks quoted r
    else some c :: marks quoted r

/-- The tokens of a query as lists of characters. -/
def split (cs : List Char) : List (List Char) :=
  if quotes cs % 2 = 1 then Chars.words cs
  else (Chars.fields Option.isNone (marks false cs)).map fun piece => piece.filterMap id

/-- The tokens of a query. -/
def tokens (raw : String) : List String :=
  (split raw.toList).map String.ofList

end Token

end Recall
