/-
Recall.Proofs.Json.Grammar — which texts are JSON, and which value each denotes.

The grammar is written without a reader in mind: a text is cut into pieces, and nothing is said of
which piece is found first or of what is left. `Denotes t j` knows no limits, neither on how deep
lists and objects are nested nor on the digits of a number; `IsText cs j` lets blanks stand around.
A text is a row of code points, and so is a string that it denotes: half of a surrogate pair is as
good there as a character.

A reader has limits, and `Exceeds depth l cs` says of a text that it passes one of them: at a place
that the grammar can reach, something that takes a level is nested deeper than `depth`, or an integer
stands that has more than `Chars.maxDigits` digits. What comes behind that place does not matter, and
so the text need not be JSON.
-/
import Recall.Json.Reader

namespace Recall

namespace Json

/-! ## 1. Strings and numbers -/

/-- Blanks, which may stand between tokens. -/
def Blank (w : List Symbol) : Prop :=
  ∀ c ∈ w, isSpace c = true

/-- The escape of a code unit by its digits, and more. -/
abbrev escape (a b c d : Char) (r : List Symbol) : List Symbol :=
  .char '\\' :: .char 'u' :: .char a :: .char b :: .char c :: .char d :: r

/-- An escape of the second half of a surrogate pair, and more. -/
def StartsLow (t : List Symbol) : Prop :=
  ∃ a b c d n r, t = escape a b c d r ∧ hex4? a b c d = some n ∧ isLowSurrogate n = true

/-- A text between quotes, and the code points it denotes. Two escapes make one character if they
are the halves of a surrogate pair; a half without the other denotes itself. -/
inductive Quoted : List Symbol → List Symbol → Prop where
  | nil : Quoted [] []
  | plain {c : Symbol} {t s : List Symbol} : isPlain c = true → Quoted t s →
      Quoted (c :: t) (c :: s)
  | letter {e c : Char} {t s : List Symbol} : escaped? e = some c → Quoted t s →
      Quoted (.char '\\' :: .char e :: t) (.char c :: s)
  | unit {a b c d : Char} {n : Nat} {t s : List Symbol} : hex4? a b c d = some n →
      (isHighSurrogate n = true → ¬ StartsLow t) → Quoted t s →
      Quoted (escape a b c d t) (.ofCode n :: s)
  | pair {a b c d a' b' c' d' : Char} {n m : Nat} {t s : List Symbol} :
      hex4? a b c d = some n → isHighSurrogate n = true →
      hex4? a' b' c' d' = some m → isLowSurrogate m = true → Quoted t s →
      Quoted (escape a b c d (escape a' b' c' d' t)) (.char (ofSurrogates n m) :: s)

/-- Digits, and at least one. -/
def Digits (ds : List Char) : Prop :=
  ds ≠ [] ∧ ∀ c ∈ ds, Chars.isAsciiDigit c = true

/-- The digits of an integer: a zero alone, or digits that do not begin with zero. -/
def Whole (ds : List Char) : Prop :=
  ds = ['0'] ∨ Digits ds ∧ ds.head? ≠ some '0'

/-- The part of a number from its point on, and its digits. -/
inductive Fraction : List Char → List Char → Prop where
  | none : Fraction [] []
  | some {ds : List Char} : Digits ds → Fraction ('.' :: ds) ds

/-- The part of a number from its exponent's letter on, and the exponent. -/
inductive Exponent : List Char → Option Int → Prop where
  | none : Exponent [] none
  | unsigned {e : Char} {ds : List Char} : e = 'e' ∨ e = 'E' → Digits ds →
      Exponent (e :: ds) (some (natOf ds))
  | signed {e : Char} {ds : List Char} {negative : Bool} : e = 'e' ∨ e = 'E' → Digits ds →
      Exponent (e :: (if negative then '-' else '+') :: ds)
        (some (if negative then -(natOf ds : Int) else natOf ds))

/-- A number after its sign. It is an integer unless it has a point or an exponent. -/
inductive Numeral (negative : Bool) : List Char → Raw → Prop where
  | int {ds : List Char} : Whole ds →
      Numeral negative ds (.int (if negative then -(natOf ds : Int) else natOf ds))
  | float {ds f frac x : List Char} {exp : Option Int} : Whole ds → Fraction f frac →
      Exponent x exp → f ≠ [] ∨ x ≠ [] →
      Numeral negative (ds ++ (f ++ x)) (.float
        (Binary64.ofDecimal negative (natOf (ds ++ frac)) (exp.getD 0 - (frac.length : Int))))

/-! ## 2. Values -/

/-- The words that stand for numbers. -/
inductive Constant : List Symbol → Binary64 → Prop where
  | nan : Constant (Symbol.ofChars ['N', 'a', 'N']) .nan
  | infinity : Constant (Symbol.ofChars ['I', 'n', 'f', 'i', 'n', 'i', 't', 'y']) (.infinite false)
  | minusInfinity :
      Constant (Symbol.ofChars ['-', 'I', 'n', 'f', 'i', 'n', 'i', 't', 'y']) (.infinite true)

/-- The texts of the values that are neither lists nor objects. -/
inductive Scalar : List Symbol → Raw → Prop where
  | null : Scalar (Symbol.ofChars ['n', 'u', 'l', 'l']) .null
  | true : Scalar (Symbol.ofChars ['t', 'r', 'u', 'e']) (.bool true)
  | false : Scalar (Symbol.ofChars ['f', 'a', 'l', 's', 'e']) (.bool false)
  | constant {t : List Symbol} {x : Binary64} : Constant t x → Scalar t (.float x)
  | string {t s : List Symbol} : Quoted t s → Scalar (.char '"' :: (t ++ [.char '"'])) (.str s)
  | number {t : List Char} {j : Raw} : Numeral false t j → Scalar (Symbol.ofChars t) j
  | negative {t : List Char} {j : Raw} : Numeral true t j →
      Scalar (.char '-' :: Symbol.ofChars t) j

section Series

variable {α : Type} (Item : List Symbol → α → Prop)

/-- What may stand between brackets: items with commas between them and blanks around each, or
blanks only. -/
inductive Series : List Symbol → List α → Prop where
  | empty {w : List Symbol} : Blank w → Series w []
  | last {w t w' : List Symbol} {a : α} : Blank w → Item t a → Blank w' →
      Series (w ++ (t ++ w')) [a]
  | more {w t w' r : List Symbol} {a b : α} {as : List α} : Blank w → Item t a → Blank w' →
      Series r (b :: as) → Series (w ++ (t ++ (w' ++ Symbol.char ',' :: r))) (a :: b :: as)

/-- What may stand between an opening bracket and an item: items with a comma behind each, and
blanks. -/
inductive Front : List Symbol → Prop where
  | first {w : List Symbol} : Blank w → Front w
  | next {w t w' r : List Symbol} {a : α} : Blank w → Item t a → Blank w' → Front r →
      Front (w ++ (t ++ (w' ++ Symbol.char ',' :: r)))

end Series

/-- What stands in front of a member's value: its key, a colon, and blanks. -/
inductive Opening : List Symbol → List Symbol → Prop where
  | mk {t s w w' : List Symbol} : Quoted t s → Blank w → Blank w' →
      Opening (.char '"' :: (t ++ Symbol.char '"' :: (w ++ Symbol.char ':' :: w'))) s

/-- A member of an object whose value is one of these. -/
inductive Member (Value : List Symbol → Raw → Prop) :
    List Symbol → List Symbol × Raw → Prop where
  | mk {t v key : List Symbol} {j : Raw} : Opening t key → Value v j →
      Member Value (t ++ v) (key, j)

/-- A text denotes a value. Of members with the same key the last one counts. -/
inductive Denotes : List Symbol → Raw → Prop where
  | scalar {t : List Symbol} {j : Raw} : Scalar t j → Denotes t j
  | list {t : List Symbol} {js : List Raw} : Series Denotes t js →
      Denotes (.char '[' :: (t ++ [.char ']'])) (.arr js)
  | object {t : List Symbol} {ms : List (List Symbol × Raw)} : Series (Member Denotes) t ms →
      Denotes (.char '{' :: (t ++ [.char '}'])) (.obj (merged ms))

/-- A whole text is JSON and denotes a value; blanks may stand around it. -/
def IsText (cs : List Symbol) (j : Raw) : Prop :=
  ∃ w t w', cs = w ++ (t ++ w') ∧ Blank w ∧ Denotes t j ∧ Blank w'

/-! ## 3. Limits -/

/-- The rest of a text in which a number before it goes on. -/
inductive Continues : List Symbol → Prop where
  | digit {c : Char} {r : List Symbol} : Chars.isAsciiDigit c = true → Continues (.char c :: r)
  | point {c : Char} {r : List Symbol} : Chars.isAsciiDigit c = true →
      Continues (.char '.' :: .char c :: r)
  | exponent {e c : Char} {r : List Symbol} : e = 'e' ∨ e = 'E' → Chars.isAsciiDigit c = true →
      Continues (.char e :: .char c :: r)
  | signed {e sign c : Char} {r : List Symbol} : e = 'e' ∨ e = 'E' → sign = '-' ∨ sign = '+' →
      Chars.isAsciiDigit c = true → Continues (.char e :: .char sign :: .char c :: r)

/-- The text begins with an integer of too many digits, without its sign. -/
inductive TooLong : List Symbol → Prop where
  | mk {ds : List Char} {r : List Symbol} : Whole ds → Chars.maxDigits < ds.length →
      ¬ Continues r → TooLong (Symbol.ofChars ds ++ r)

/-- The text passes a limit at a place that the grammar can reach: it has an integer that is too
long, or something that takes a level is nested deeper than `depth`, which is a list, an object or a
word that stands for a number. -/
inductive Exceeds : Nat → Limit → List Symbol → Prop where
  | number {depth : Nat} {r : List Symbol} : TooLong r → Exceeds depth .numberTooLong r
  | negative {depth : Nat} {r : List Symbol} : TooLong r →
      Exceeds depth .numberTooLong (.char '-' :: r)
  | constant {t r : List Symbol} {x : Binary64} : Constant t x → Exceeds 0 .tooDeep (t ++ r)
  | list {r : List Symbol} : Exceeds 0 .tooDeep (.char '[' :: r)
  | object {r : List Symbol} : Exceeds 0 .tooDeep (.char '{' :: r)
  | inList {depth : Nat} {l : Limit} {front r : List Symbol} : Front Denotes front →
      Exceeds depth l r → Exceeds (depth + 1) l (.char '[' :: (front ++ r))
  | inObject {depth : Nat} {l : Limit} {front opening key r : List Symbol} :
      Front (Member Denotes) front → Opening opening key → Exceeds depth l r →
      Exceeds (depth + 1) l (.char '{' :: (front ++ (opening ++ r)))

/-- A whole text passes a limit, after blanks. -/
def TextExceeds (depth : Nat) (l : Limit) (cs : List Symbol) : Prop :=
  ∃ w r, cs = w ++ r ∧ Blank w ∧ Exceeds depth l r

end Json

end Recall
