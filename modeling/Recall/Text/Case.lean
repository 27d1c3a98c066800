/-
Recall.Text.Case — lower case and case folding.

Lowering is the full mapping of the Unicode standard: U+0130 becomes two characters, and a capital
sigma becomes a final sigma at the end of a word. The end of a word is decided by the nearest
characters on both sides that are not case-ignorable: a sigma is final when the one before is
cased and the one after is not. `lowerFrom` carries what is known of the text on the left, so that
lowering a text is one pass over its characters.

Folding, which only serves to compare names, has no context.
-/
import Recall.Text.Chars
import Recall.Text.CaseData

namespace Recall

namespace Chars

/-! ## 1. Character properties -/

/-- Membership of a code point in a list of closed ranges. -/
def inRanges (ranges : List (Nat × Nat)) (n : Nat) : Bool :=
  ranges.any fun (lo, hi) => lo ≤ n && n ≤ hi

/-- The property `Case_Ignorable`: such characters do not end the search for a neighbour. -/
def isCaseIgnorable (c : Char) : Bool :=
  inRanges ignorableRanges c.toNat

/-- The property `Cased`, asked of characters that are not case-ignorable. -/
def isCased (c : Char) : Bool :=
  inRanges casedRanges c.toNat

/-- The image of a code point under the first shift that covers it. -/
def shifted? (shifts : List (Nat × Nat × Nat × Int)) (n : Nat) : Option Nat :=
  shifts.findSome? fun (first, last, step, delta) =>
    if first ≤ n ∧ n ≤ last ∧ (n - first) % step = 0 then some ((n : Int) + delta).toNat else none

/-! ## 2. Lower case -/

/-- The lower case of a character whose lower case is one character whatever its neighbours. -/
def lowerOne (c : Char) : Char :=
  if c.toNat < 0x80 then c.toLower
  else ((shifted? lowerShifts c.toNat).map Char.ofNat).getD c

/-- Whether the first character that is not case-ignorable is cased. -/
def startsCased : List Char → Bool
  | [] => false
  | c :: r => if isCaseIgnorable c then startsCased r else isCased c

/-- Whether a text ends cased, given whether the text before it does. -/
def endsCased (before : Bool) (c : Char) : Bool :=
  if isCaseIgnorable c then before else isCased c

/-- The lower case of one character between a text on the left, which ends cased or not, and the
text on the right. -/
def lowerChar (before : Bool) (c : Char) (after : List Char) : List Char :=
  if c = 'Σ' then [if before && !startsCased after then 'ς' else 'σ']
  else if c = 'İ' then ['i', '\u0307']
  else [lowerOne c]

/-- The lower case of a text that follows a text which ends cased or not. -/
def lowerFrom (before : Bool) : List Char → List Char
  | [] => []
  | c :: r => lowerChar before c r ++ lowerFrom (endsCased before c) r

/-- The lower case of a text. -/
def lower (cs : List Char) : List Char :=
  lowerFrom false cs

/-! ## 3. Case folding -/

/-- The case folding of one character. -/
def foldChar (c : Char) : List Char :=
  match foldExpansions.find? fun e => e.1 == c.toNat with
  | some e => e.2.map Char.ofNat
  | none =>
    match shifted? foldShifts c.toNat with
    | some n => [Char.ofNat n]
    | none => lowerChar false c []

/-- The case folding of a text, which two texts share when they differ in case only. -/
def foldCase (cs : List Char) : List Char :=
  cs.flatMap foldChar

end Chars

namespace Text

/-- The lower case of a string. -/
def lower (s : String) : String :=
  String.ofList (Chars.lower s.toList)

/-- The case folding of a string. -/
def foldCase (s : String) : String :=
  String.ofList (Chars.foldCase s.toList)

@[simp] theorem toList_lower (s : String) : (lower s).toList = Chars.lower s.toList := by
  simp [lower]

end Text

end Recall
