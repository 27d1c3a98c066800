/-
Recall.Search.Score — how well a record matches a needle.

A field earns 20 when it is the phrase, 12 when it begins with it and 8 when it has it elsewhere,
and 1 more for every word that it has; its weight multiplies the sum. The score of fields is the sum
of their scores, from the first to the last.

Weights are reckoned with in two ways (`Reckoning`). A caller may give any number of the binary64
format, and products and sums are rounded. The weights of records are multiples of one eighth, so
their scores are kept as the integer numbers of their eighths, and sums are exact.
-/
import Recall.Number.Binary64
import Recall.Query.Needle
import Recall.Text.Digit

namespace Recall

/-- A score or a weight, in eighths. -/
abbrev Score := Int

/-- A text with the weight of its matches. -/
structure Field (W : Type := Score) where
  text : String
  weight : W
  deriving DecidableEq, Repr

/-- What scores and weights are reckoned with. -/
class Reckoning (W : Type) where
  zero : W
  add : W → W → W
  /-- So many points at a weight. -/
  times : Nat → W → W

instance : Reckoning Score where
  zero := 0
  add := (· + ·)
  times := fun p w => p * w

/-- The largest number that is counted up to by ones: one more is rounded to it again. -/
def Binary64.countLimit : Nat := Nat.pow 2 53

/-- Points as they are counted. -/
def Binary64.counted (points : Nat) : Nat := min points countLimit

instance : Reckoning Binary64 where
  zero := .zero
  add := .add
  times := fun p w => .times (Binary64.counted p) w

namespace Score

/-! ## 1. Weights -/

def titleWeight : Score := 32
def nameWeight : Score := 32
def questionWeight : Score := 24
def tagWeight : Score := 16
def spaceWeight : Score := 16
def noteWeight : Score := 12
def bodyWeight : Score := 8
def metaWeight : Score := 4

/-! ## 2. Scores -/

/-- What the phrase earns in a lowered text: only the highest step counts. -/
def phrasePoints (phrase lowered : String) : Nat :=
  if lowered = phrase then 20
  else if phrase.toList.isPrefixOf lowered.toList then 12
  else if Text.occursIn phrase lowered then 8
  else 0

/-- What the words earn in a lowered text. -/
def wordPoints (words : List String) (lowered : String) : Nat :=
  (words.filter fun w => Text.occursIn w lowered).length

section Sums

variable {W : Type} [Reckoning W]

/-- The score of one lowered field; an empty field has none. -/
def ofField (n : Needle) (lowered : String) (weight : W) : W :=
  if lowered = "" then Reckoning.zero
  else Reckoning.times (phrasePoints n.phrase lowered + wordPoints n.words lowered) weight

/-- The sum of scores, from the first to the last. -/
def total (scores : List W) : W :=
  scores.foldl Reckoning.add Reckoning.zero

/-- The score of fields that are lowered already. A needle without a phrase scores nothing. -/
def ofLowered (n : Needle) (fields : List (Field W)) : W :=
  if n.phrase = "" then Reckoning.zero
  else total (fields.map fun f => ofField n f.text f.weight)

/-- The score of fields. -/
def ofFields (n : Needle) (fields : List (Field W)) : W :=
  if n.phrase = "" then Reckoning.zero
  else total (fields.map fun f => ofField n (Text.lower f.text) f.weight)

/-- The fields lowered once and for all; empty ones are left out. -/
def lowerFields (fields : List (Field W)) : List (Field W) :=
  (fields.filter fun f => f.text != "").map fun f => ⟨Text.lower f.text, f.weight⟩

end Sums

/-! ## 3. Texts -/

/-- The decimals of a number of eighths below one. -/
def eighths (k : Nat) : List Char :=
  match k with
  | 0 => ['0']
  | 1 => ['1', '2', '5']
  | 2 => ['2', '5']
  | 3 => ['3', '7', '5']
  | 4 => ['5']
  | 5 => ['6', '2', '5']
  | 6 => ['7', '5']
  | _ => ['8', '7', '5']

/-- The exact decimal text, with at least one digit after the point. -/
def text (s : Score) : String :=
  String.ofList ((if s < 0 then ['-'] else []) ++ Chars.digits (s.natAbs / 8) ++
    '.' :: eighths (s.natAbs % 8))

/-- The text with one decimal; a tie goes to the even digit. -/
def brief (s : Score) : String :=
  let n := s.natAbs * 10
  let tenths := if n % 8 < 4 ∨ (n % 8 = 4 ∧ n / 8 % 2 = 0) then n / 8 else n / 8 + 1
  String.ofList ((if s < 0 then ['-'] else []) ++ Chars.digits (tenths / 10) ++
    '.' :: Chars.digits (tenths % 10))

end Score

end Recall
