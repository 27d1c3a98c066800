/-
Recall.Yaml.Writer — YAML text of a value.

Collections are written as blocks, with sorted keys and two spaces for each level; a list stands
below its key without indentation, and empty collections are written as flow collections. A text is
written plain when it reads back as that text, else in single quotes when it is printable ASCII
whose lines neither begin nor end with a space, else in double quotes. Lines of more than eighty
characters are broken at single spaces. Keys are written in front of their colon, so they are short
texts of one line.
-/
import Recall.Json.Writer
import Recall.Yaml.Schema

namespace Recall

namespace Yaml

/-! ## 1. Which form a text takes -/

/-- Characters that a plain scalar may not begin with. -/
def isIndicator (c : Char) : Bool :=
  ['#', ',', '[', ']', '{', '}', '&', '*', '!', '|', '>', '\'', '"', '%', '@', '\x60'].contains c

/-- Whether a text is over or goes on with a space. -/
def endsWord : List Char → Bool
  | [] => true
  | c :: _ => c == ' '

/-- Whether a text, behind a space or not, has a colon before a space or a hash behind one. -/
def hasMarks (spaced : Bool) : List Char → Bool
  | [] => false
  | c :: r => (c == ':' && endsWord r) || (c == '#' && spaced) || hasMarks (c == ' ') r

/-- Whether a text would be taken for something else than a plain scalar. -/
def hasIndicators : List Char → Bool
  | [] => false
  | c :: r =>
    ['-', '-', '-'].isPrefixOf (c :: r) || ['.', '.', '.'].isPrefixOf (c :: r) || isIndicator c ||
      ((c == '?' || c == ':' || c == '-') && endsWord r) || hasMarks (c == ' ') r

/-- Characters that are written only as escapes. -/
def isSpecial (c : Char) : Bool :=
  !(c == '\n' || (' ' ≤ c && c ≤ '~'))

/-- The forms of a written text. -/
inductive Form where
  | plain
  | single
  | double
  deriving DecidableEq, Repr

/-- The form that a text takes. -/
def formOf (text : String) : Form :=
  let cs := text.toList
  if cs.any isSpecial || Chars.occursIn [' ', '\n'] cs || Chars.occursIn ['\n', ' '] cs then .double
  else if cs.contains '\n' || cs.head? == some ' ' || cs.getLast? == some ' ' ||
      hasIndicators cs || plainTag text != Tag.str then .single
  else .plain

/-! ## 2. Texts -/

/-- Lines are broken when they are longer than this. -/
def lineWidth : Nat := 80

/-- A line break with the indentation of the next line. -/
def newline (indent : Nat) : List Char :=
  '\n' :: List.replicate indent ' '

/-- A text from a column on, behind a character if there is one. Once the line is full it is broken
at single spaces between other characters. `quoted` writes quotes twice; line feeds begin new
lines, and the first of a row is written twice. -/
def foldText (quoted split : Bool) (indent : Nat) (before : Option Char) (column : Nat) :
    List Char → List Char
  | [] => []
  | c :: r =>
    if c == ' ' then
      let inner := before.any (· != ' ') && !endsWord r
      if split && inner && lineWidth < column then
        newline indent ++ foldText quoted split indent (some c) indent r
      else ' ' :: foldText quoted split indent (some c) (column + 1) r
    else if quoted && c == '\'' then
      '\'' :: '\'' :: foldText quoted split indent (some c) (column + 2) r
    else if c == '\n' then
      (if before == some '\n' then ['\n'] else ['\n', '\n']) ++
        (if r.head? == some '\n' then foldText quoted split indent (some c) 0 r
        else List.replicate indent ' ' ++ foldText quoted split indent (some c) indent r)
    else c :: foldText quoted split indent (some c) (column + 1) r

/-- An upper-case hexadecimal digit. -/
def upperHexDigit (n : Nat) : Char :=
  if n < 10 then Char.ofNat ('0'.toNat + n) else Char.ofNat ('A'.toNat + (n - 10))

/-- A number with exactly `width` hexadecimal digits. -/
def hexText : Nat → Nat → List Char
  | 0, _ => []
  | width + 1, n => hexText width (n / 16) ++ [upperHexDigit (n % 16)]

/-- The letter of a one-letter escape. -/
def escapeLetter? (c : Char) : Option Char :=
  match c with
  | '\x00' => some '0'
  | '\x07' => some 'a'
  | '\x08' => some 'b'
  | '\t' => some 't'
  | '\n' => some 'n'
  | '\x0B' => some 'v'
  | '\x0C' => some 'f'
  | '\r' => some 'r'
  | '\x1B' => some 'e'
  | '"' => some '"'
  | '\\' => some '\\'
  | '\x85' => some 'N'
  | '\xA0' => some '_'
  | '\u2028' => some 'L'
  | '\u2029' => some 'P'
  | _ => none

/-- The escape of a character that needs one. -/
def escapeOf? (c : Char) : Option (List Char) :=
  match escapeLetter? c with
  | some letter => some ['\\', letter]
  | none =>
    if ' ' ≤ c ∧ c ≤ '~' then none
    else if c.toNat ≤ 0xFF then some ('\\' :: 'x' :: hexText 2 c.toNat)
    else if c.toNat ≤ 0xFFFF then some ('\\' :: 'u' :: hexText 4 c.toNat)
    else some ('\\' :: 'U' :: hexText 8 c.toNat)

/-- An escaped line break, with a backslash for a space that would begin the next line. -/
def escapedBreak (indent : Nat) (next : List Char) : List Char :=
  '\\' :: newline indent ++ (if next.head? == some ' ' then ['\\'] else [])

/-- The column behind an escaped line break. -/
def escapedColumn (indent : Nat) (next : List Char) : Nat :=
  if next.head? == some ' ' then indent + 1 else indent

/-- A text in double quotes from a column on. Once the line is full it is broken behind an escape or
before a space. `fresh` says that the character before was an escape. -/
def escapeText (split : Bool) (indent : Nat) (first fresh : Bool) (column : Nat) :
    List Char → List Char
  | [] => []
  | c :: r =>
    let inner := split && !first && !r.isEmpty
    match escapeOf? c with
    | some e =>
      let column := column + e.length
      if inner && lineWidth + 1 < column then
        e ++ escapedBreak indent r ++ escapeText split indent false true (escapedColumn indent r) r
      else e ++ escapeText split indent false true column r
    | none =>
      if inner && (c == ' ' || fresh) && lineWidth < column then
        escapedBreak indent (c :: r) ++
          c :: escapeText split indent false false (escapedColumn indent (c :: r) + 1) r
      else c :: escapeText split indent false false (column + 1) r

/-- A text as a scalar that begins at a column and goes on at an indentation; unsplit for a key. -/
def textAt (split : Bool) (indent column : Nat) (text : String) : List Char :=
  match formOf text with
  | .plain => foldText false split indent none column text.toList
  | .single => '\'' :: foldText true split indent none (column + 1) text.toList ++ ['\'']
  | .double => '"' :: escapeText split indent true true (column + 1) text.toList ++ ['"']

/-! ## 3. Values -/

/-- A floating-point number, with a point in front of an exponent. -/
def floatText (x : Binary64) : List Char :=
  match x with
  | .nan => ['.', 'n', 'a', 'n']
  | .infinite negative => (if negative then ['-'] else []) ++ ['.', 'i', 'n', 'f']
  | x =>
    let cs := x.text.toList
    if cs.contains '.' || !cs.contains 'e' then cs
    else cs.takeWhile (· != 'e') ++ ['.', '0'] ++ cs.dropWhile (· != 'e')

mutual

/-- A value behind its key's colon, in a mapping at an indentation; the line has reached a
column. -/
def valueText (indent column : Nat) : Json → List Char
  | .null => [' ', 'n', 'u', 'l', 'l']
  | .bool b => if b then [' ', 't', 'r', 'u', 'e'] else [' ', 'f', 'a', 'l', 's', 'e']
  | .int n => ' ' :: Json.intText n
  | .float x => ' ' :: floatText x
  | .str s => ' ' :: textAt true (indent + 2) (column + 1) s
  | .arr [] => [' ', '[', ']']
  | .arr (j :: js) => newline indent ++ '-' :: itemText indent j ++ itemsText indent js
  | .obj [] => [' ', '{', '}']
  | .obj (m :: ms) => newline (indent + 2) ++ membersText (indent + 2) (m :: ms)

/-- An item behind its hyphen, in a list at an indentation. -/
def itemText (indent : Nat) : Json → List Char
  | .arr (j :: js) => ' ' :: '-' :: itemText (indent + 2) j ++ itemsText (indent + 2) js
  | .obj (m :: ms) => ' ' :: membersText (indent + 2) (m :: ms)
  | .null => [' ', 'n', 'u', 'l', 'l']
  | .bool b => if b then [' ', 't', 'r', 'u', 'e'] else [' ', 'f', 'a', 'l', 's', 'e']
  | .int n => ' ' :: Json.intText n
  | .float x => ' ' :: floatText x
  | .str s => ' ' :: textAt true (indent + 2) (indent + 2) s
  | .arr [] => [' ', '[', ']']
  | .obj [] => [' ', '{', '}']

/-- The items after the first. -/
def itemsText (indent : Nat) : List Json → List Char
  | [] => []
  | j :: js => newline indent ++ '-' :: itemText indent j ++ itemsText indent js

/-- The members of a mapping at an indentation, which the line has reached. -/
def membersText (indent : Nat) : List (String × Json) → List Char
  | [] => []
  | (k, v) :: ms =>
    let key := textAt false indent indent k
    key ++ ':' :: valueText indent (indent + key.length + 1) v ++
      (if ms.isEmpty then [] else newline indent) ++ membersText indent ms

end

mutual

/-- A value with its keys in order. -/
def sorted : Json → Json
  | .arr js => .arr (sortedItems js)
  | .obj ms => .obj ((sortedMembers ms).mergeSort fun a b => Chars.le a.1.toList b.1.toList)
  | .null => .null
  | .bool b => .bool b
  | .int n => .int n
  | .float x => .float x
  | .str s => .str s

/-- Items with their keys in order. -/
def sortedItems : List Json → List Json
  | [] => []
  | j :: js => sorted j :: sortedItems js

/-- Members with the keys inside them in order. -/
def sortedMembers : List (String × Json) → List (String × Json)
  | [] => []
  | (k, v) :: ms => (k, sorted v) :: sortedMembers ms

end

/-- The text of an object; there is none when an integer is too long. -/
def write? (members : List (String × Json)) : Option (List Char) :=
  match sorted (.obj members) with
  | .obj ms =>
    if !Json.areWritableMembers ms then none
    else if ms.isEmpty then some ['{', '}', '\n']
    else some (membersText 0 ms ++ ['\n'])
  | _ => none

end Yaml

end Recall
