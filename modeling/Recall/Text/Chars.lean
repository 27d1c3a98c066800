/-
Recall.Text.Chars — texts as lists of characters.

Every rule of the library that looks inside a text is a recursion over `List Char`; `String` is
what records hold and what callers pass. This module has the operations that know nothing of
letters: blanks, trimming, cutting a text into pieces, joining pieces, and finding one text in
another.

The blank characters are those of the Unicode property `White_Space` together with the four
information separators U+001C to U+001F. Neither the zero-width space U+200B nor the byte order
mark U+FEFF is blank.
-/
namespace Recall

namespace Chars

/-! ## 1. Blanks -/

/-- The blank characters. -/
def isBlank (c : Char) : Bool :=
  let n := c.toNat
  (0x09 ≤ n && n ≤ 0x0D) || (0x1C ≤ n && n ≤ 0x20) || n == 0x85 || n == 0xA0 || n == 0x1680 ||
    (0x2000 ≤ n && n ≤ 0x200A) || n == 0x2028 || n == 0x2029 || n == 0x202F || n == 0x205F ||
    n == 0x3000

/-- Drops the characters with `p` at the right end. -/
def dropRight (p : Char → Bool) : List Char → List Char
  | [] => []
  | c :: r =>
    match dropRight p r with
    | [] => if p c then [] else [c]
    | d :: s => c :: d :: s

/-- Drops the characters with `p` at both ends. -/
def strip (p : Char → Bool) (cs : List Char) : List Char :=
  dropRight p (cs.dropWhile p)

/-- Drops the blanks at both ends. -/
def trim (cs : List Char) : List Char :=
  strip isBlank cs

/-- A text is blank when it has no other character than blanks. -/
def isBlankText (cs : List Char) : Bool :=
  cs.all isBlank

/-! ## 2. Pieces -/

/-- Cuts a list at each element with `p`; the pieces in between are kept, also the empty ones, so
there is one piece more than there are cuts. -/
def cut {α : Type} (p : α → Bool) : List α → List (List α)
  | [] => [[]]
  | a :: r =>
    match cut p r with
    | [] => [[a]]
    | s :: rest => if p a then [] :: s :: rest else (a :: s) :: rest

/-- The non-empty pieces between the elements with `p`. -/
def fields {α : Type} (p : α → Bool) (as : List α) : List (List α) :=
  (cut p as).filter fun s => !s.isEmpty

/-- The words of a text: its maximal runs of characters that are not blank. -/
def words (cs : List Char) : List (List Char) :=
  fields isBlank cs

/-- Puts `sep` between neighbours. -/
def join (sep : List Char) : List (List Char) → List Char
  | [] => []
  | [s] => s
  | s :: t :: rest => s ++ sep ++ join sep (t :: rest)

/-- Words with one space between neighbours: leading and trailing blanks go, and every run of
blanks inside becomes one space. -/
def collapse (cs : List Char) : List Char :=
  join [' '] (words cs)

/-! ## 3. One text inside another -/

/-- Whether `needle` occurs in the text as a run of neighbouring characters. -/
def occursIn (needle : List Char) : List Char → Bool
  | [] => needle.isEmpty
  | c :: r => needle.isPrefixOf (c :: r) || occursIn needle r

/-- The starts of the leftmost occurrences of `needle` that do not overlap. `at` is the position of
the list's head, and `skip` the number of characters that the last occurrence still covers. -/
def hitsFrom (needle : List Char) (pos skip : Nat) : List Char → List Nat
  | [] => []
  | c :: r =>
    match skip with
    | k + 1 => hitsFrom needle (pos + 1) k r
    | 0 =>
      if needle.isPrefixOf (c :: r) then pos :: hitsFrom needle (pos + 1) (needle.length - 1) r
      else hitsFrom needle (pos + 1) 0 r

/-- The starts of the leftmost occurrences of `needle` that do not overlap, in order. -/
def hits (needle cs : List Char) : List Nat :=
  hitsFrom needle 0 0 cs

/-- The position of the first occurrence. -/
def find? (needle cs : List Char) : Option Nat :=
  (hits needle cs).head?

/-- The number of leftmost occurrences that do not overlap. -/
def count (needle cs : List Char) : Nat :=
  (hits needle cs).length

/-! ## 4. Order -/

/-- The lexicographic order by code point. -/
def le : List Char → List Char → Bool
  | [], _ => true
  | _ :: _, [] => false
  | a :: r, b :: s => a < b || (a == b && le r s)

end Chars

namespace Text

/-! ## 5. The same on strings -/

/-- Drops the blanks at both ends. -/
def trim (s : String) : String :=
  String.ofList (Chars.trim s.toList)

/-- A string is blank when it has no other character than blanks. -/
def isBlank (s : String) : Bool :=
  Chars.isBlankText s.toList

/-- The words of a string. -/
def words (s : String) : List String :=
  (Chars.words s.toList).map String.ofList

/-- The words of a string with one space between neighbours. -/
def collapse (s : String) : String :=
  String.ofList (Chars.collapse s.toList)

/-- Puts `sep` between neighbours. -/
def join (sep : String) (parts : List String) : String :=
  String.ofList (Chars.join sep.toList (parts.map String.toList))

/-- Whether `needle` occurs in the string. -/
def occursIn (needle s : String) : Bool :=
  Chars.occursIn needle.toList s.toList

/-- The elements without repeats: of equal ones the first stays. -/
def distinct {α : Type} [BEq α] : List α → List α
  | [] => []
  | a :: r => a :: (distinct r).filter fun b => !(b == a)

@[simp] theorem toList_trim (s : String) : (trim s).toList = Chars.trim s.toList := by
  simp [trim]

@[simp] theorem toList_collapse (s : String) : (collapse s).toList = Chars.collapse s.toList := by
  simp [collapse]

@[simp] theorem toList_join (sep : String) (parts : List String) :
    (join sep parts).toList = Chars.join sep.toList (parts.map String.toList) := by
  simp [join]

@[simp] theorem map_toList_words (s : String) :
    (words s).map String.toList = Chars.words s.toList := by
  simp [words, Function.comp_def]

end Text

end Recall
