/-
Recall.Text.Symbol — code points, which are more than characters.

Stored text is a row of code points. Nearly all of them are characters, but halves of surrogate pairs,
which stand for no character, may be among them: an escape can name one, and bytes can encode one.
-/
import Recall.Text.Chars

namespace Recall

/-- A code point. -/
inductive Symbol where
  | char (c : Char)
  /-- Half of a surrogate pair, by its place among the halves. -/
  | half (n : Fin 0x800)
  deriving DecidableEq, Repr

namespace Symbol

/-- The code point with a number. -/
def ofCode (n : Nat) : Symbol :=
  if h : 0xD800 ≤ n ∧ n ≤ 0xDFFF then .half ⟨n - 0xD800, by omega⟩ else .char (Char.ofNat n)

/-- The code points of characters. -/
def ofChars (cs : List Char) : List Symbol :=
  cs.map .char

/-- The characters of code points, if there are no halves among them. -/
def chars? : List Symbol → Option (List Char)
  | [] => some []
  | .char c :: r => (chars? r).map (c :: ·)
  | .half _ :: _ => none

end Symbol

end Recall
