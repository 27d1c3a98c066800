/-
Recall.Text.Digit — decimal digits of every script, and integers read from text.

A decimal digit is a character of the Unicode category `Nd`; such characters come in rows of ten,
from zero to nine. A *digit sign* may also be a superscript, a circled or another numeral of one
digit, which has no place in a number.
-/
import Recall.Text.Chars

namespace Recall

namespace Chars

/-! ## 1. Digits -/

/-- The zeros of the decimal digit rows. -/
def digitZeros : List Nat :=
  [
   48, 1632, 1776, 1984, 2406, 2534, 2662, 2790, 2918, 3046, 3174, 3302, 3430, 3558, 3664, 3792,
   3872, 4160, 4240, 6112, 6160, 6470, 6608, 6784, 6800, 6992, 7088, 7232, 7248, 42528, 43216,
   43264, 43472, 43504, 43600, 44016, 65296, 66720, 68912, 69734, 69872, 69942, 70096, 70384,
   70736, 70864, 71248, 71360, 71472, 71904, 72016, 72784, 73040, 73120, 92768, 92864, 93008,
   120782, 120792, 120802, 120812, 120822, 123200, 123632, 125264, 130032]

/-- The ranges of the digit signs that are no decimal digits. -/
def digitSignRanges : List (Nat × Nat) :=
  [
   (178, 179), (185, 185), (4969, 4977), (6618, 6618), (8304, 8304), (8308, 8313), (8320, 8329),
   (9312, 9320), (9332, 9340), (9352, 9360), (9450, 9450), (9461, 9469), (9471, 9471),
   (10102, 10110), (10112, 10120), (10122, 10130), (68160, 68163), (69216, 69224), (69714, 69722),
   (127232, 127242)]

/-- The value of a decimal digit of any script. -/
def digitValue? (c : Char) : Option Nat :=
  (digitZeros.find? fun z => z ≤ c.toNat && c.toNat < z + 10).map fun z => c.toNat - z

/-- Decimal digits and the other digit signs. -/
def isDigitSign (c : Char) : Bool :=
  (digitValue? c).isSome || digitSignRanges.any fun (lo, hi) => lo ≤ c.toNat && c.toNat ≤ hi

/-- The ASCII digits. -/
def isAsciiDigit (c : Char) : Bool :=
  '0' ≤ c && c ≤ '9'

/-- The value of a hexadecimal digit. -/
def hexValue? (c : Char) : Option Nat :=
  if '0' ≤ c ∧ c ≤ '9' then some (c.toNat - '0'.toNat)
  else if 'a' ≤ c ∧ c ≤ 'f' then some (c.toNat - 'a'.toNat + 10)
  else if 'A' ≤ c ∧ c ≤ 'F' then some (c.toNat - 'A'.toNat + 10)
  else none

/-- The number that a row of digit values denotes. -/
def ofDigits (ds : List Nat) : Nat :=
  ds.foldl (fun n d => 10 * n + d) 0

/-- The digits of a number, most significant first; zero has one digit. -/
def digits (n : Nat) : List Char :=
  Nat.toDigits 10 n

/-- A number written with at least `width` digits, padded with zeros. -/
def padded (width n : Nat) : List Char :=
  List.replicate (width - (digits n).length) '0' ++ digits n

/-! ## 2. Integers from text -/

/-- Numbers of more digits than this are refused wherever an integer is read. -/
def maxDigits : Nat := 4300

/-- The blanks that may stand around a number: all but the information separators. -/
def isNumberBlank (c : Char) : Bool :=
  c == ' ' || ('\t' ≤ c && c ≤ '\r') || (0x7F ≤ c.toNat && isBlank c)

/-- Digits with at most one underscore between two of them; the digits' values. -/
def underscored? : List Char → Option (List Nat)
  | [] => none
  | [c] => (digitValue? c).map fun d => [d]
  | c :: '_' :: r => do return (← digitValue? c) :: (← underscored? r)
  | c :: d :: r => do return (← digitValue? c) :: (← underscored? (d :: r))

/-- The number that digits, possibly with underscores, denote. -/
def natural? (cs : List Char) : Option Nat := do
  let ds ← underscored? cs
  if ds.length ≤ maxDigits then some (ofDigits ds) else none

/-- The integer that a text denotes: digits of any script with an optional sign in front and
blanks around. -/
def integer? (cs : List Char) : Option Int :=
  match strip isNumberBlank cs with
  | '-' :: r => (natural? r).map fun n => -(n : Int)
  | '+' :: r => (natural? r).map Int.ofNat
  | r => (natural? r).map Int.ofNat

end Chars

end Recall
