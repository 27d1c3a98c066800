/-
Recall.Query.Needle — what free text asks for.

Free text is lowered and cut into words. A text matches when it has the whole phrase, or else every
word; a needle without words asks for the phrase alone.
-/
import Recall.Text.Case

namespace Recall

/-- The lowered phrase with its distinct words in order. -/
structure Needle where
  phrase : String := ""
  words : List String := []
  deriving DecidableEq, Repr, Inhabited

namespace Needle

/-- The needle of a free text: its lowered words, joined by single spaces for the phrase. -/
def ofText (raw : String) : Needle :=
  let ws := Text.words (Text.lower raw)
  ⟨Text.join " " ws, Text.distinct ws⟩

/-- The needle that asks for the phrase alone. -/
def phraseOnly (n : Needle) : Needle :=
  { n with words := [] }

/-- A needle that asks for nothing. -/
def isEmpty (n : Needle) : Bool :=
  n.phrase == "" && n.words.isEmpty

/-- Whether a lowered text has what is asked for. -/
def matchesLowered (n : Needle) (lowered : String) : Bool :=
  Text.occursIn n.phrase lowered ||
    (!n.words.isEmpty && n.words.all fun w => Text.occursIn w lowered)

/-- The lowered text of several parts, one to a line; parts that are empty or missing are left
out. -/
def combine (parts : List (Option String)) : String :=
  Text.lower (Text.join "\n" (parts.filterMap fun p => p.filter fun s => s != ""))

/-- Whether text parts together have what is asked for. -/
def matchesParts (n : Needle) (parts : List (Option String)) : Bool :=
  n.matchesLowered (combine parts)

end Needle

end Recall
