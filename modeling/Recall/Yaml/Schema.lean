/-
Recall.Yaml.Schema — what scalars stand for.

A tag decides it. A plain scalar without a tag takes the tag of the first type whose form it has:
truth value, floating-point number, integer, merge key, null, date, default key; any other is text.
The forms are those of YAML 1.1, so `yes` is a truth value, `010` is eight and `1:30` is ninety.
-/
import Recall.Json.Value
import Recall.Text.Case
import Recall.Text.Digit
import Recall.Time.Calendar
import Recall.Yaml.Text

namespace Recall

namespace Yaml

/-! ## 1. Tags -/

namespace Tag

/-- What the double exclamation mark stands for. -/
def core : String := "tag:yaml.org,2002:"

def null : String := "tag:yaml.org,2002:null"
def bool : String := "tag:yaml.org,2002:bool"
def int : String := "tag:yaml.org,2002:int"
def float : String := "tag:yaml.org,2002:float"
def str : String := "tag:yaml.org,2002:str"
def timestamp : String := "tag:yaml.org,2002:timestamp"
def binary : String := "tag:yaml.org,2002:binary"
def seq : String := "tag:yaml.org,2002:seq"
def map : String := "tag:yaml.org,2002:map"
def set : String := "tag:yaml.org,2002:set"
def omap : String := "tag:yaml.org,2002:omap"
def pairs : String := "tag:yaml.org,2002:pairs"
/-- The key whose value is a mapping to be taken over. -/
def merge : String := "tag:yaml.org,2002:merge"
/-- The key of a mapping's default value. -/
def default : String := "tag:yaml.org,2002:value"

end Tag

/-! ## 2. Pieces of forms -/

/-- Drops a sign in front. -/
def dropSign : List Char → List Char
  | '-' :: r => r
  | '+' :: r => r
  | r => r

/-- Whether a text is not empty and all its characters are in a set. -/
def isRun (p : Char → Bool) (cs : List Char) : Bool :=
  !cs.isEmpty && cs.all p

def isDecimal (c : Char) : Bool := Chars.isAsciiDigit c || c == '_'
def isBinary (c : Char) : Bool := c == '0' || c == '1' || c == '_'
def isOctal (c : Char) : Bool := ('0' ≤ c && c ≤ '7') || c == '_'
def isHexadecimal (c : Char) : Bool := (Chars.hexValue? c).isSome || c == '_'

/-- Whether a text begins with a digit that `first` allows and goes on with digits and
underscores. -/
def isNumeral (first : Char → Bool) : List Char → Bool
  | [] => false
  | c :: r => first c && r.all isDecimal

/-- The digits from one to nine. -/
def isPositive (c : Char) : Bool :=
  '1' ≤ c && c ≤ '9'

/-- Whether a text is one digit, or two of which the first is at most five. -/
def isSixtieth : List Char → Bool
  | [a] => Chars.isAsciiDigit a
  | [a, b] => '0' ≤ a && a ≤ '5' && Chars.isAsciiDigit b
  | _ => false

/-- Whether a text is empty or an exponent with a sign. -/
def isExponent : List Char → Bool
  | [] => true
  | e :: s :: r => (e == 'e' || e == 'E') && (s == '+' || s == '-') && isRun Chars.isAsciiDigit r
  | _ => false

/-- A text cut at its colons. -/
def colonParts (cs : List Char) : List (List Char) :=
  Chars.cut (· == ':') cs

/-! ## 3. Forms -/

/-- The words for truth, by their lower case. -/
def truth? : List Char → Option Bool
  | ['y', 'e', 's'] => some true
  | ['t', 'r', 'u', 'e'] => some true
  | ['o', 'n'] => some true
  | ['n', 'o'] => some false
  | ['f', 'a', 'l', 's', 'e'] => some false
  | ['o', 'f', 'f'] => some false
  | _ => none

/-- Whether a word is in lower case, in upper case, or in lower case but for its first letter. -/
def isCased (cs : List Char) : Bool :=
  let lowered := cs.map Char.toLower
  cs == lowered || cs == cs.map Char.toUpper ||
    cs == (lowered.take 1).map Char.toUpper ++ lowered.drop 1

/-- The form of a truth value. -/
def isBool (cs : List Char) : Bool :=
  isCased cs && (truth? (cs.map Char.toLower)).isSome

/-- The form of an integer: binary, octal, decimal, hexadecimal, or decimal in base sixty. -/
def isInt (cs : List Char) : Bool :=
  match dropSign cs with
  | '0' :: 'b' :: r => isRun isBinary r
  | '0' :: 'x' :: r => isRun isHexadecimal r
  | '0' :: r => r.all isOctal
  | r =>
    match colonParts r with
    | whole :: parts => isNumeral isPositive whole && parts.all isSixtieth
    | [] => false

/-- The form of a floating-point number: with a point, infinite, undefined, or in base sixty with a
point. Only a number that begins with a digit, and infinity, may have a sign. -/
def isFloat (cs : List Char) : Bool :=
  let body := dropSign cs
  let signed := body.length != cs.length
  match body with
  | '.' :: r =>
    (isCased r && r.map Char.toLower == ['i', 'n', 'f']) ||
      (!signed && [['n', 'a', 'n'], ['N', 'a', 'N'], ['N', 'A', 'N']].contains r) ||
      (!signed && isNumeral Chars.isAsciiDigit (r.takeWhile isDecimal) &&
        isExponent (r.dropWhile isDecimal))
  | r =>
    match r.dropWhile (· != '.') with
    | [] => false
    | _ :: after =>
      match colonParts (r.takeWhile (· != '.')) with
      | [whole] =>
        isNumeral Chars.isAsciiDigit whole && isExponent (after.dropWhile isDecimal)
      | whole :: parts =>
        isNumeral Chars.isAsciiDigit whole && parts.all isSixtieth && after.all isDecimal
      | [] => false

/-- The form of null. -/
def isNull (cs : List Char) : Bool :=
  cs.isEmpty || cs == ['~'] || (isCased cs && cs.map Char.toLower == ['n', 'u', 'l', 'l'])

/-! ## 4. Dates -/

/-- The numbers of a date, with a time of day and an offset from UTC if there is one. -/
structure Stamp where
  year : Nat
  month : Nat
  day : Nat
  /-- Hour, minute and second. -/
  time : Option (Nat × Nat × Nat) := none
  /-- The minutes of the offset, without its sign. -/
  offset : Nat := 0
  deriving DecidableEq, Repr

/-- From `least` to `most` digits, as many as there are, and the rest. -/
def digitsBetween (least most : Nat) (cs : List Char) : Option (Nat × List Char) :=
  let ds := (cs.take most).takeWhile Chars.isAsciiDigit
  if ds.length < least then none
  else some (Chars.ofDigits (ds.map fun c => c.toNat - '0'.toNat), cs.drop ds.length)

/-- The rest behind a character that must come next. -/
def after (c : Char) : List Char → Option (List Char)
  | [] => none
  | d :: r => if d = c then some r else none

/-- The offset at the end of a date: a letter for UTC, or hours and perhaps minutes. -/
def stampOffset (cs : List Char) : Option Nat :=
  match cs.dropWhile isWhite with
  | [] => if cs.isEmpty then some 0 else none
  | ['Z'] => some 0
  | c :: r =>
    if c = '+' ∨ c = '-' then do
      let (hours, r) ← digitsBetween 1 2 r
      match r with
      | [] => some (hours * 60)
      | r => do
        let (minutes, r) ← digitsBetween 2 2 (← after ':' r)
        if r.isEmpty then some (hours * 60 + minutes) else none
    else none

/-- The time of day behind a date, with the offset. -/
def stampTime (cs : List Char) : Option ((Nat × Nat × Nat) × Nat) := do
  let cs ← match cs with
    | 'T' :: r => some r
    | 't' :: r => some r
    | c :: r => if isWhite c then some (r.dropWhile isWhite) else none
    | [] => none
  let (hour, r) ← digitsBetween 1 2 cs
  let (minute, r) ← digitsBetween 2 2 (← after ':' r)
  let (second, r) ← digitsBetween 2 2 (← after ':' r)
  let r := match r with
    | '.' :: r => r.dropWhile Chars.isAsciiDigit
    | r => r
  return ((hour, minute, second), ← stampOffset r)

/-- The numbers of a text with the form of a date. Months and days without a time of day have two
digits when `strict`. -/
def stamp? (strict : Bool) (cs : List Char) : Option Stamp := do
  let (year, r) ← digitsBetween 4 4 cs
  let (month, r) ← digitsBetween 1 2 (← after '-' r)
  let (day, r) ← digitsBetween 1 2 (← after '-' r)
  if r.isEmpty then
    if strict && cs.length != 10 then none else some ⟨year, month, day, none, 0⟩
  else
    let (time, offset) ← stampTime r
    return ⟨year, month, day, some time, offset⟩

/-- Whether the numbers denote a date, and a time of day if there is one. -/
def Stamp.isValid (s : Stamp) : Bool :=
  (Date.mk s.year s.month s.day).isValid && s.offset < 24 * 60 &&
    s.time.all fun (hour, minute, second) => hour ≤ 23 && minute ≤ 59 && second ≤ 59

/-! ## 5. The tag of a plain scalar -/

/-- The tag of a plain scalar without one. -/
def plainTag (text : String) : String :=
  let cs := text.toList
  if isBool cs then Tag.bool
  else if isFloat cs then Tag.float
  else if isInt cs then Tag.int
  else if cs == ['<', '<'] then Tag.merge
  else if isNull cs then Tag.null
  else if (stamp? true cs).isSome then Tag.timestamp
  else if cs == ['='] then Tag.default
  else Tag.str

/-! ## 6. Values -/

/-- The number that digits denote in a base, an error without digits. -/
def numberIn (base : Nat) (cs : List Char) : Except Error Int :=
  match cs.mapM fun c => (Chars.hexValue? c).filter (· < base) with
  | some (d :: ds) => .ok ((d :: ds).foldl (fun n d => base * n + d) 0 : Nat)
  | _ => .error .badNumber

/-- The sum of numbers in base sixty. -/
def sexagesimal (parts : List Int) : Int :=
  parts.foldl (fun n d => 60 * n + d) 0

/-- The number that a decimal text denotes. -/
def decimal (cs : List Char) : Except Error Int :=
  match Chars.integer? cs with
  | some n => .ok n
  | none => .error .badNumber

/-- The magnitude of an integer, without sign and underscores. -/
def magnitude (cs : List Char) : Except Error Int :=
  match cs with
  | [] => .error .emptyNumber
  | ['0'] => .ok 0
  | '0' :: 'b' :: r => numberIn 2 r
  | '0' :: 'x' :: r => numberIn 16 r
  | '0' :: r => numberIn 8 r
  | cs =>
    if cs.contains ':' then do return sexagesimal (← (colonParts cs).mapM decimal)
    else decimal cs

/-- The integer that a text denotes. -/
def intValue (cs : List Char) : Except Error Int :=
  match cs.filter (· != '_') with
  | [] => .error .emptyNumber
  | '-' :: r => do return -(← magnitude r)
  | '+' :: r => magnitude r
  | r => magnitude r

/-- A decimal text as digits and an exponent: digits with a point among them or none, and perhaps
an exponent. -/
def decimalParts? (cs : List Char) : Option (Nat × Int) :=
  let number (ds : List Char) : Nat := Chars.ofDigits (ds.map fun c => c.toNat - '0'.toNat)
  let whole := cs.takeWhile Chars.isAsciiDigit
  let (frac, r) := match cs.dropWhile Chars.isAsciiDigit with
    | '.' :: r => (r.takeWhile Chars.isAsciiDigit, r.dropWhile Chars.isAsciiDigit)
    | r => ([], r)
  if whole.isEmpty && frac.isEmpty then none
  else
    match r with
    | [] => some (number (whole ++ frac), -(frac.length : Int))
    | e :: r =>
      let ds := dropSign r
      if e == 'e' && isRun Chars.isAsciiDigit ds then
        let n : Int := number ds
        some (number (whole ++ frac),
          (if startsWith ['-'] r then -n else n) - (frac.length : Int))
      else none

/-- A sum in base sixty of decimals, as digits and an exponent. -/
def sexagesimalParts (parts : List (Nat × Int)) : Nat × Int :=
  parts.foldl (fun (n, e) (d, x) =>
    let least := min e x
    (60 * n * Nat.pow 10 (e - least).toNat + d * Nat.pow 10 (x - least).toNat, least)) (0, 0)

/-- The lowered words for infinity. The words without a point need a tag to count as numbers. -/
def infinityWords : List (List Char) :=
  [".inf".toList, "inf".toList, "infinity".toList]

/-- The lowered words for what is not a number. -/
def nanWords : List (List Char) :=
  [".nan".toList, "nan".toList]

/-- The floating-point number that a text denotes. -/
def floatValue (cs : List Char) : Except Error Binary64 :=
  let cs := Chars.lower (cs.filter (· != '_'))
  let negative := startsWith ['-'] cs
  let r := dropSign cs
  if r.isEmpty then .error .emptyNumber
  else if infinityWords.contains r then .ok (.infinite negative)
  else if nanWords.contains r then .ok .nan
  else
    match (colonParts r).mapM decimalParts? with
    | some [(n, e)] => .ok (Binary64.ofDecimal negative n e)
    | some parts =>
      let (n, e) := sexagesimalParts parts
      .ok (Binary64.ofDecimal negative n e)
    | none => .error .badNumber

/-- A date, kept as its text. -/
def dateValue (text : String) : Except Error Json :=
  match stamp? false text.toList with
  | none => .error .notDate
  | some s => if s.isValid then .ok (.str text) else .error .badDate

/-- The sextets of encoded bytes are complete when their number leaves no remainder of four, or
padding makes up for it. -/
def isEncodedBytes (sextets : Nat) (padding : Nat) : List Char → Bool
  | [] => sextets % 4 == 0
  | c :: r =>
    if c == '=' then
      if 2 ≤ sextets % 4 && 4 ≤ sextets % 4 + padding + 1 then true
      else isEncodedBytes sextets (if 2 ≤ sextets % 4 then padding + 1 else padding) r
    else if c.isAlphanum || c == '+' || c == '/' then isEncodedBytes (sextets + 1) 0 r
    else isEncodedBytes sextets padding r

/-- Encoded bytes, kept as their text. -/
def bytesValue (text : String) : Except Error Json :=
  let cs := text.toList
  if cs.all (fun c => c.toNat < 0x80) && isEncodedBytes 0 0 cs then .ok (.str text)
  else .error .malformed

/-- The value of a scalar with a tag; an error for a tag that stands for nothing here. -/
def scalarValue (tag text : String) : Except Error Json :=
  let cs := text.toList
  if tag = Tag.str then .ok (.str text)
  else if tag = Tag.null then .ok .null
  else if tag = Tag.bool then
    match truth? (Chars.lower cs) with
    | some b => .ok (.bool b)
    | none => .error .unknownFlag
  else if tag = Tag.int then (intValue cs).map .int
  else if tag = Tag.float then (floatValue cs).map .float
  else if tag = Tag.timestamp then dateValue text
  else if tag = Tag.binary then bytesValue text
  else .error .malformed

end Yaml

end Recall
