/-
Recall.Json.Reader — reading JSON text.

A reader takes the code points that are left and gives a value with the code points after it.
`value` recurses on the number of levels that are left, and a list of items on the number of code
points that are left, so both are total and nesting too deep is an outcome of its own. How many levels
there are is up to the caller. Text may hold `NaN`, `Infinity` and `-Infinity`, which take a level;
integers have at most `maxDigits` digits; a repeated key keeps its place and takes the last value.
Half of a surrogate pair may stand in a string, by itself or as an escape.

What goes wrong is decided by the first place at which the text cannot be read on. Where a value is
missing this is reported outside of the whole text. Anything else that is malformed is reported from
its place, so the levels that are left there are kept: a report takes some too (`ReadError.limit?`).
-/
import Recall.Json.Value
import Recall.Text.Digit

namespace Recall

namespace Json

/-- What a text may have too much of to be read, whether it is JSON or not. -/
inductive Limit where
  /-- Something is nested too deep. -/
  | tooDeep
  /-- An integer has too many digits. -/
  | numberTooLong
  deriving DecidableEq, Repr

/-- Why a text cannot be read as JSON. -/
inductive ReadError where
  /-- There is no value where one has to be. -/
  | missing
  /-- The text is not JSON, as is seen where `left` levels are left. -/
  | malformed (left : Nat)
  | limit (l : Limit)
  deriving DecidableEq, Repr

/-- The levels that the report of a malformed text takes. -/
def reportLevels : Nat := 3

/-- The limit that keeps a text from being read. A malformed text passes one where too few levels are
left to report it. -/
def ReadError.limit? : ReadError → Option Limit
  | .missing => none
  | .malformed left => if left < reportLevels then some .tooDeep else none
  | .limit l => some l

/-- Reads a value off the front of a text and gives the rest. -/
abbrev Reader (α : Type) := List Symbol → Except ReadError (α × List Symbol)

/-! ## 1. Blanks and strings -/

/-- The four characters that may stand between tokens. -/
def isSpace (c : Symbol) : Bool :=
  c == .char ' ' || c == .char '\t' || c == .char '\n' || c == .char '\r'

/-- Drops the blanks in front. -/
def skip (cs : List Symbol) : List Symbol :=
  cs.dropWhile isSpace

/-- The number that four hexadecimal digits denote. -/
def hex4? (a b c d : Char) : Option Nat := do
  let high := (← Chars.hexValue? a) * 16 + (← Chars.hexValue? b)
  let low := (← Chars.hexValue? c) * 16 + (← Chars.hexValue? d)
  return high * 256 + low

/-- The first half of a surrogate pair. -/
def isHighSurrogate (n : Nat) : Bool :=
  0xD800 ≤ n && n ≤ 0xDBFF

/-- The second half of a surrogate pair. -/
def isLowSurrogate (n : Nat) : Bool :=
  0xDC00 ≤ n && n ≤ 0xDFFF

/-- The character that a surrogate pair denotes. -/
def ofSurrogates (high low : Nat) : Char :=
  Char.ofNat (0x10000 + (high - 0xD800) * 0x400 + (low - 0xDC00))

/-- The character that a one-letter escape stands for. -/
def escaped? (c : Char) : Option Char :=
  match c with
  | '"' => some '"'
  | '\\' => some '\\'
  | '/' => some '/'
  | 'b' => some '\x08'
  | 'f' => some '\x0C'
  | 'n' => some '\n'
  | 'r' => some '\r'
  | 't' => some '\t'
  | _ => none

/-- A code unit escape `\uXXXX` whose letter `u` has been read. -/
def unit (left : Nat) : Reader Nat
  | .char a :: .char b :: .char c :: .char d :: r =>
    match hex4? a b c d with
    | some n => .ok (n, r)
    | none => .error (.malformed left)
  | _ => .error (.malformed left)

/-- The escapes of a character beyond the first: after the first half of a surrogate pair its
second half is looked for. Without it the code unit stands for itself. -/
def pairUp (left n : Nat) (r : List Symbol) : Except ReadError (Symbol × List Symbol) :=
  match isHighSurrogate n, r with
  | true, .char '\\' :: .char 'u' :: r' => do
    let (m, r'') ← unit left r'
    if isLowSurrogate m then .ok (.char (ofSurrogates n m), r'') else .ok (.ofCode n, r)
  | _, _ => .ok (.ofCode n, r)

/-- Whether a code point may stand in a string as it is. -/
def isPlain : Symbol → Bool
  | .char c => c != '"' && c != '\\' && 0x20 ≤ c.toNat
  | .half _ => true

/-- The rest of a string, up to its closing quote. `fuel` bounds the code points. -/
def stringBody (left : Nat) : Nat → Reader (List Symbol)
  | 0, _ => .error (.malformed left)
  | fuel + 1, cs =>
    match cs with
    | [] => .error (.malformed left)
    | .char '"' :: r => .ok ([], r)
    | .char '\\' :: .char 'u' :: r => do
      let (n, r) ← unit left r
      let (c, r) ← pairUp left n r
      let (s, r) ← stringBody left fuel r
      return (c :: s, r)
    | .char '\\' :: .char e :: r =>
      match escaped? e with
      | none => .error (.malformed left)
      | some c => do
        let (s, r) ← stringBody left fuel r
        return (.char c :: s, r)
    | c :: r =>
      if isPlain c then do
        let (s, r) ← stringBody left fuel r
        return (c :: s, r)
      else .error (.malformed left)

/-- A string whose opening quote has been read. -/
def string (left : Nat) : Reader (List Symbol) := fun cs =>
  stringBody left (cs.length + 1) cs

/-! ## 2. Numbers -/

/-- The ASCII digits in front, and the rest. -/
def digitRun : List Symbol → List Char × List Symbol
  | .char c :: r =>
    if Chars.isAsciiDigit c then
      let (ds, r) := digitRun r
      (c :: ds, r)
    else ([], .char c :: r)
  | r => ([], r)

/-- The digits of an integer: a zero alone, or digits that do not begin with zero. -/
def integerPart? : List Symbol → Option (List Char × List Symbol)
  | .char '0' :: r => some (['0'], r)
  | cs =>
    match digitRun cs with
    | ([], _) => none
    | (ds, r) => some (ds, r)

/-- The digits after a point, if a point and a digit come next. -/
def fraction : List Symbol → List Char × List Symbol
  | .char '.' :: r =>
    match digitRun r with
    | ([], _) => ([], .char '.' :: r)
    | (ds, r) => (ds, r)
  | cs => ([], cs)

/-- A sign in front; true for minus. -/
def sign : List Symbol → Bool × List Symbol
  | .char '-' :: r => (true, r)
  | .char '+' :: r => (false, r)
  | r => (false, r)

/-- The number that ASCII digits denote. -/
def natOf (ds : List Char) : Nat :=
  Chars.ofDigits (ds.map fun c => c.toNat - '0'.toNat)

/-- The exponent part, if one comes next. -/
def exponentPart (cs : List Symbol) : Option Int × List Symbol :=
  match cs with
  | .char e :: r =>
    if e = 'e' ∨ e = 'E' then
      let (negative, r) := sign r
      match digitRun r with
      | ([], _) => (none, cs)
      | (ds, r) => (some (if negative then -(natOf ds : Int) else (natOf ds : Int)), r)
    else (none, cs)
  | _ => (none, cs)

/-- A number after its sign. -/
def number (negative : Bool) : Reader Raw := fun cs =>
  match integerPart? cs with
  | none => .error .missing
  | some (whole, r) =>
    let (frac, r) := fraction r
    let (exp, r) := exponentPart r
    if frac.isEmpty ∧ exp.isNone then
      if Chars.maxDigits < whole.length then .error (.limit .numberTooLong)
      else .ok (.int (if negative then -(natOf whole : Int) else (natOf whole : Int)), r)
    else
      let places : Int := frac.length
      let x := Binary64.ofDecimal negative (natOf (whole ++ frac)) (exp.getD 0 - places)
      .ok (.float x, r)

/-! ## 3. Values -/

/-- Reads a word that stands for a value. -/
def word (w : List Char) (j : Raw) : Reader Raw := fun cs =>
  if (Symbol.ofChars w).isPrefixOf cs then .ok (j, cs.drop w.length) else .error .missing

/-- Reads a word that stands for a number, for which a level has to be left. -/
def constant (left : Nat) (w : List Char) (x : Binary64) : Reader Raw := fun cs => do
  let read ← word w (.float x) cs
  if left = 0 then .error (.limit .tooDeep) else return read

/-- The values that are neither lists nor objects. -/
def scalar (left : Nat) : Reader Raw
  | .char '"' :: r => do
    let (s, r) ← string left r
    return (.str s, r)
  | .char 'n' :: r => word ['u', 'l', 'l'] .null r
  | .char 't' :: r => word ['r', 'u', 'e'] (.bool true) r
  | .char 'f' :: r => word ['a', 'l', 's', 'e'] (.bool false) r
  | .char 'N' :: r => constant left ['a', 'N'] .nan r
  | .char 'I' :: r => constant left ['n', 'f', 'i', 'n', 'i', 't', 'y'] (.infinite false) r
  | .char '-' :: .char 'I' :: r =>
    constant left ['n', 'f', 'i', 'n', 'i', 't', 'y'] (.infinite true) r
  | .char '-' :: r => number true r
  | r => number false r

/-- One item and the items after it, up to the closing character. `fuel` bounds the items. -/
def itemsFrom {α : Type} (left : Nat) (item : Reader α) (close : Char) : Nat → Reader (List α)
  | 0, _ => .error (.malformed left)
  | fuel + 1, cs => do
    let (a, r) ← item (skip cs)
    match skip r with
    | [] => .error (.malformed left)
    | c :: r =>
      if c = .char close then return ([a], r)
      else if c = .char ',' then
        let (rest, r) ← itemsFrom left item close fuel r
        return (a :: rest, r)
      else .error (.malformed left)

/-- Items separated by commas, up to the closing character, which may come at once. -/
def items {α : Type} (left : Nat) (item : Reader α) (close : Char) : Reader (List α) := fun cs =>
  if (skip cs).head? = some (.char close) then .ok ([], (skip cs).tail)
  else itemsFrom left item close (cs.length + 1) (skip cs)

/-- A member of an object. -/
def member (left : Nat) (value : Reader Raw) : Reader (List Symbol × Raw)
  | .char '"' :: r => do
    let (key, r) ← string left r
    match skip r with
    | .char ':' :: r => do
      let (v, r) ← value (skip r)
      return ((key, v), r)
    | _ => .error (.malformed left)
  | _ => .error (.malformed left)

/-- Members in the order of their keys' first appearance, each with its key's last value. -/
def merged (members : List (List Symbol × Raw)) : List (List Symbol × Raw) :=
  members.foldl (fun done m => put done m.1 m.2) []

/-- A value with `left` levels left for it. -/
def value : Nat → Reader Raw
  | left, .char '[' :: r =>
    match left with
    | 0 => .error (.limit .tooDeep)
    | n + 1 => do
      let (js, r) ← items n (value n) ']' r
      return (.arr js, r)
  | left, .char '{' :: r =>
    match left with
    | 0 => .error (.limit .tooDeep)
    | n + 1 => do
      let (ms, r) ← items n (member n (value n)) '}' r
      return (.obj (merged ms), r)
  | left, cs => scalar left cs

/-- The value of a whole text, with `depth` levels for it. That a value is missing is reported one
level further out, and that there is more text behind it two. -/
def read (depth : Nat) (cs : List Symbol) : Except ReadError Raw :=
  match value depth (skip cs) with
  | .error .missing => .error (.malformed (depth + 1))
  | .error e => .error e
  | .ok (j, r) =>
    match skip r with
    | [] => .ok j
    | _ => .error (.malformed (depth + 2))

end Json

end Recall
