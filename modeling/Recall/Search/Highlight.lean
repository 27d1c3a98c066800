/-
Recall.Search.Highlight — marking what a query matches in a text.

The patterns are the query and, when it is longer than one character, its words of more than one
character; each is looked for once, the longest first. The leftmost occurrences of a pattern that do
not overlap are stretches of the text. The stretches of all patterns are put in order and joined where
they overlap or touch, and the text is then cut at their ends into parts that are marked and parts that
are not.

Stretches are found in the lowered text and cut out of the text itself, so a text whose lower case has
another length is left unmarked.
-/
import Recall.Text.Case

namespace Recall

/-- A run of a text that is marked or not. -/
structure Part where
  text : String
  marked : Bool
  deriving DecidableEq, Repr

/-- A stretch of a text, from one position up to another that is no longer in it. -/
structure Span where
  start : Nat
  stop : Nat
  deriving DecidableEq, Repr

namespace Span

/-- The order by start, and by end among stretches with one start. -/
def le (s t : Span) : Bool :=
  s.start < t.start || (s.start == t.start && s.stop ≤ t.stop)

/-- Joins the stretches that overlap or touch; `s` is the one that is being extended. -/
def joinFrom (s : Span) : List Span → List Span
  | [] => [s]
  | t :: r =>
    if t.start ≤ s.stop then joinFrom ⟨s.start, max s.stop t.stop⟩ r else s :: joinFrom t r

/-- Stretches in order, joined where they overlap or touch. -/
def merge (spans : List Span) : List Span :=
  match spans.mergeSort le with
  | [] => []
  | s :: r => joinFrom s r

end Span

namespace Highlight

/-- What is looked for, each pattern once and longer ones first. -/
def patterns (query : List Char) (words : List (List Char)) : List (List Char) :=
  let long := if 2 ≤ query.length then words.filter fun w => 2 ≤ w.length else []
  (Text.distinct ((query :: long).filter fun p => !p.isEmpty)).mergeSort
    fun p q => q.length ≤ p.length

/-- The stretches of a text that a pattern takes up. -/
def spansOf (cs pattern : List Char) : List Span :=
  (Chars.hits pattern cs).map fun i => ⟨i, i + pattern.length⟩

/-- The stretches of a text to mark. -/
def spans (text query : List Char) (words : List (List Char)) : List Span :=
  let lowered := Chars.lower text
  if lowered.length = text.length then Span.merge ((patterns query words).flatMap (spansOf lowered))
  else []

/-- Cuts a text, from a position on, at the ends of stretches that lie one behind the other. -/
def cut (cs : List Char) (pos : Nat) : List Span → List Part
  | [] => if pos < cs.length then [⟨String.ofList (cs.drop pos), false⟩] else []
  | s :: r =>
    let behind := ⟨String.ofList ((cs.take s.stop).drop s.start), true⟩ :: cut cs s.stop r
    if pos < s.start then ⟨String.ofList ((cs.take s.start).drop pos), false⟩ :: behind
    else behind

/-- A word as it is looked for, in lower case and without blanks at its ends. -/
def prepared (s : String) : List Char :=
  Chars.lower (Chars.trim s.toList)

/-- The text in parts, marked and unmarked in turn. -/
def parts (text query : String) (words : List String) : List Part :=
  let words := (words.filter fun w => !Text.isBlank w).map prepared
  cut text.toList 0 (spans text.toList (prepared query) words)

end Highlight

end Recall
