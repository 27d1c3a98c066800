/-
Recall.Json.Writer — JSON text.

A layout says which characters are escaped and whether lists and objects are spread over lines.
Members are written in the order in which the object has them. Integers that could not be read again
for their length are not written either.
-/
import Recall.Json.Reader
import Recall.Number.Shortest

namespace Recall

namespace Json

/-- How values are written. -/
structure Layout where
  /-- Everything outside printable ASCII is escaped; otherwise only quotes, backslashes and
  control characters are. -/
  ascii : Bool
  /-- The spaces by which each level is indented on lines of its own; `none` writes one line. -/
  indent : Option Nat
  /-- What stands between items on one line. -/
  comma : List Char
  /-- What stands after a key. -/
  colon : List Char

/-- One line, with a space after each comma and colon, in printable ASCII. -/
def plainLayout : Layout := ⟨true, none, [',', ' '], [':', ' ']⟩

/-- Two spaces for each level, and text as it is. -/
def openLayout : Layout := ⟨false, some 2, [','], [':', ' ']⟩

/-- One line without spaces, in printable ASCII. -/
def denseLayout : Layout := ⟨true, none, [','], [':']⟩

/-! ## 1. Strings -/

/-- A hexadecimal digit. -/
def hexDigit (n : Nat) : Char :=
  if n < 10 then Char.ofNat ('0'.toNat + n) else Char.ofNat ('a'.toNat + (n - 10))

/-- The escape of a code unit. -/
def unitEscape (n : Nat) : List Char :=
  ['\\', 'u', hexDigit (n / 4096 % 16), hexDigit (n / 256 % 16), hexDigit (n / 16 % 16),
    hexDigit (n % 16)]

/-- The escape of a character by its code units. -/
def unitEscapes (c : Char) : List Char :=
  let n := c.toNat
  if n < 0x10000 then unitEscape n
  else unitEscape (0xD800 + (n - 0x10000) / 0x400) ++ unitEscape (0xDC00 + (n - 0x10000) % 0x400)

/-- A character of a string as it is written. -/
def charText (ascii : Bool) (c : Char) : List Char :=
  match c with
  | '"' => ['\\', '"']
  | '\\' => ['\\', '\\']
  | '\n' => ['\\', 'n']
  | '\r' => ['\\', 'r']
  | '\t' => ['\\', 't']
  | '\x08' => ['\\', 'b']
  | '\x0C' => ['\\', 'f']
  | c => if c.toNat < 0x20 ∨ (ascii ∧ 0x7E < c.toNat) then unitEscapes c else [c]

/-- A string as it is written. -/
def stringText (ascii : Bool) (s : String) : List Char :=
  '"' :: s.toList.flatMap (charText ascii) ++ ['"']

/-! ## 2. Values -/

/-- An integer as it is written. -/
def intText (n : Int) : List Char :=
  (if n < 0 then ['-'] else []) ++ Chars.digits n.natAbs

/-- A floating-point number as it is written. -/
def floatText : Binary64 → List Char
  | .nan => ['N', 'a', 'N']
  | .infinite false => ['I', 'n', 'f', 'i', 'n', 'i', 't', 'y']
  | .infinite true => ['-', 'I', 'n', 'f', 'i', 'n', 'i', 't', 'y']
  | x => x.text.toList

/-- A line break with the indentation of a level; nothing when all is on one line. -/
def newline (ly : Layout) (level : Nat) : List Char :=
  match ly.indent with
  | none => []
  | some k => '\n' :: List.replicate (k * level) ' '

mutual

/-- A value at a level of nesting. -/
def textAt (ly : Layout) (level : Nat) : Json → List Char
  | .null => ['n', 'u', 'l', 'l']
  | .bool true => ['t', 'r', 'u', 'e']
  | .bool false => ['f', 'a', 'l', 's', 'e']
  | .int n => intText n
  | .float x => floatText x
  | .str s => stringText ly.ascii s
  | .arr [] => ['[', ']']
  | .arr (j :: js) =>
    '[' :: newline ly (level + 1) ++ textAt ly (level + 1) j ++ itemsText ly (level + 1) js ++
      newline ly level ++ [']']
  | .obj [] => ['{', '}']
  | .obj ((k, v) :: ms) =>
    '{' :: newline ly (level + 1) ++ stringText ly.ascii k ++ ly.colon ++
      textAt ly (level + 1) v ++ membersText ly (level + 1) ms ++ newline ly level ++ ['}']

/-- The items after the first. -/
def itemsText (ly : Layout) (level : Nat) : List Json → List Char
  | [] => []
  | j :: js => ly.comma ++ newline ly level ++ textAt ly level j ++ itemsText ly level js

/-- The members after the first. -/
def membersText (ly : Layout) (level : Nat) : List (String × Json) → List Char
  | [] => []
  | (k, v) :: ms =>
    ly.comma ++ newline ly level ++ stringText ly.ascii k ++ ly.colon ++ textAt ly level v ++
      membersText ly level ms

end

/-- The text of a value. -/
def write (ly : Layout) (j : Json) : String :=
  String.ofList (textAt ly 0 j)

/-! ## 3. Whether a value can be written -/

mutual

/-- Whether all integers in a value have few enough digits. -/
def isWritable : Json → Bool
  | .arr js => areWritable js
  | .obj ms => areWritableMembers ms
  | .int n => (Chars.digits n.natAbs).length ≤ Chars.maxDigits
  | .null => true
  | .bool _ => true
  | .float _ => true
  | .str _ => true

/-- The same for items. -/
def areWritable : List Json → Bool
  | [] => true
  | j :: js => isWritable j && areWritable js

/-- The same for members. -/
def areWritableMembers : List (String × Json) → Bool
  | [] => true
  | (_, v) :: ms => isWritable v && areWritableMembers ms

end

/-- Why a value cannot be written. -/
inductive WriteError where
  /-- An integer has too many digits. -/
  | numberTooLong
  deriving DecidableEq, Repr

/-- The text of a value, if it can be written. -/
def tryWrite (ly : Layout) (j : Json) : Except WriteError String :=
  if isWritable j then .ok (write ly j) else .error .numberTooLong

end Json

end Recall
