/-
Recall.Yaml.Text — the characters that structure a YAML text.

Lines end at a line feed, at U+0085 and at the two Unicode separators; by the time a text is read a
carriage return, alone or before a line feed, has become a line feed. The first two read as a line feed
inside a scalar and the separators read as themselves. Everything here is a function of the
characters that are left, and the end of the text counts as a gap.
-/
import Recall.Text.Chars

namespace Recall

namespace Yaml

/-- Why a YAML text cannot be read. -/
inductive Error where
  /-- The text is not YAML, or uses a tag that stands for nothing here. -/
  | malformed
  /-- Collections are nested too deep. -/
  | tooDeep
  /-- A text that is to be a number is none, or has too many digits. -/
  | badNumber
  /-- A text has the form of a date but denotes none. -/
  | badDate
  /-- An escape names a code point beyond the last one. -/
  | noCharacter
  /-- An escape names a number that is no code point on any count. -/
  | codeTooLarge
  /-- A text is tagged as a truth value and is none. -/
  | unknownFlag
  /-- A text is tagged as a number and is empty. -/
  | emptyNumber
  /-- A text is tagged as a date and has not the form of one. -/
  | notDate
  deriving DecidableEq, Repr

/-! ## 1. Character classes -/

/-- Characters that end a line. -/
def isBreak (c : Char) : Bool :=
  c == '\n' || c == '\x85' || c == '\u2028' || c == '\u2029'

/-- Spaces and tabs. -/
def isWhite (c : Char) : Bool :=
  c == ' ' || c == '\t'

/-- Characters that separate tokens. -/
def isGap (c : Char) : Bool :=
  isWhite c || isBreak c

/-- What a line end reads as inside a scalar. -/
def breakText (c : Char) : Char :=
  if c = '\x85' then '\n' else c

/-- Characters that may stand in a text. -/
def isPrintable (c : Char) : Bool :=
  let n := c.toNat
  c == '\t' || c == '\n' || c == '\r' || (0x20 ≤ n && n ≤ 0x7E) || n == 0x85 ||
    (0xA0 ≤ n && n ≤ 0xD7FF) || (0xE000 ≤ n && n ≤ 0xFFFD) || 0x10000 ≤ n

/-- Characters of names: of anchors, directives and tag handles. -/
def isNameChar (c : Char) : Bool :=
  ('0' ≤ c && c ≤ '9') || ('A' ≤ c && c ≤ 'Z') || ('a' ≤ c && c ≤ 'z') || c == '-' || c == '_'

/-! ## 2. What comes next -/

/-- Whether a gap comes next. -/
def startsGap : List Char → Bool
  | [] => true
  | c :: _ => isGap c

/-- Whether a line end comes next, or the end of the text. -/
def startsBreak : List Char → Bool
  | [] => true
  | c :: _ => isBreak c

/-- Whether a line end or a space comes next. -/
def startsSpace : List Char → Bool
  | [] => true
  | c :: _ => c == ' ' || isBreak c

/-- Whether the mark between documents comes next. -/
def startsDocument : List Char → Bool
  | '-' :: '-' :: '-' :: r => startsGap r
  | _ => false

/-- Whether the mark after a document comes next. -/
def endsDocument : List Char → Bool
  | '.' :: '.' :: '.' :: r => startsGap r
  | _ => false

/-- Whether a mark of documents comes next. -/
def startsMark (cs : List Char) : Bool :=
  startsDocument cs || endsDocument cs

/-- Whether one of some characters comes next. -/
def startsWith (set : List Char) : List Char → Bool
  | [] => false
  | c :: _ => set.contains c

/-! ## 3. Lines -/

/-- The rest of the line, and the text from its end on. -/
def line (cs : List Char) : List Char × List Char :=
  (cs.takeWhile fun c => !isBreak c, cs.dropWhile fun c => !isBreak c)

/-- The end of the line, if it comes next. -/
def lineEnd : List Char → Option Char × List Char
  | [] => (none, [])
  | c :: r => if isBreak c then (some (breakText c), r) else (none, c :: r)

/-- Spaces and a comment, up to the end of the line, which is passed; an error if anything else
stands there. -/
def restOfLine (cs : List Char) : Except Error (List Char) :=
  match cs.dropWhile (· == ' ') with
  | '#' :: r => .ok (lineEnd (line r).2).2
  | r => if startsBreak r then .ok (lineEnd r).2 else .error .malformed

/-- What a line break reads as between two pieces of a scalar, given the line ends after the first:
a single line feed reads as a space, and of several the first is not counted. -/
def foldedBreaks (first : Char) (more : List Char) : List Char :=
  if first ≠ '\n' then first :: more else if more.isEmpty then [' '] else more

end Yaml

end Recall
