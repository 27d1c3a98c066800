/-
Recall.Query.Basic — reading a typed query.

The words of a query, joined by single spaces, are its text; the needle is made from that text and
the operators from the other terms. `verbatim:` in the query, or else the caller's default, decides
whether the needle asks for the phrase alone.
-/
import Recall.Query.Operator

namespace Recall

/-- A query that has been read. -/
structure Query where
  text : String := ""
  needle : Needle := {}
  operators : Operators := {}
  deriving DecidableEq, Repr, Inhabited

namespace Query

/-- The meanings of a query's tokens, in order. -/
def terms (raw : String) : List Term :=
  (Token.tokens raw).map Term.ofToken

/-- The free text among terms. -/
def textOf (ts : List Term) : String :=
  Text.join " " (ts.filterMap Term.word?)

/-- Reads a query; `verbatim` is the default for asking for the phrase alone. -/
def parse (raw : String) (verbatim : Bool := false) : Query :=
  let ts := terms raw
  let text := textOf ts
  let operators := Operators.ofTerms ts
  let needle := Needle.ofText text
  ⟨text, if operators.verbatim.getD verbatim then needle.phraseOnly else needle, operators⟩

end Query

end Recall
