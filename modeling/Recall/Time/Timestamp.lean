/-
Recall.Time.Timestamp — instants as text.

An instant is a number of milliseconds from 1970-01-01T00:00Z. `parse?` reads the date and time
forms of ISO 8601: extended and basic dates, week dates, any one character between date and time,
fractions of a second, and offsets. `format?` writes `YYYY-MM-DDThh:mm:ss.mmmZ` and is undefined
outside the years 1 to 9999, although reading can give an instant there through its offset.

The reader works on the octets of the UTF-8 form, each taken as the character of the same number,
because a character that is longer than one octet must not pass for the single one that may stand
between clock and offset. Some laxities are part of the format: the seconds may be followed by a
colon instead of a point, and what follows the clock is ignored when it is a single character
before an offset.
-/
import Recall.Time.Calendar
import Recall.Text.Digit

namespace Recall

namespace Timestamp

/-! ## 1. Pieces -/

/-- The octets of the UTF-8 form, as characters. -/
def octets (cs : List Char) : List Char :=
  cs.flatMap fun c => (String.utf8EncodeChar c).map fun b => Char.ofNat b.toNat

/-- What stands for the octet past the end of a text. -/
def nul : Char := '\x00'

/-- Exactly `n` ASCII digits, and the rest. -/
def number? (n : Nat) (cs : List Char) : Option (Nat × List Char) :=
  let ds := cs.take n
  if ds.length = n ∧ ds.all Chars.isAsciiDigit then
    some (Chars.ofDigits (ds.map fun c => c.toNat - '0'.toNat), cs.drop n)
  else none

/-- The rest after a hyphen, which must be there when `wanted`. -/
def hyphen? (wanted : Bool) (cs : List Char) : Option (List Char) :=
  match wanted, cs with
  | false, r => some r
  | true, '-' :: r => some r
  | true, _ => none

/-- Runs a reader that must use up its text. -/
def whole? (r : Option (Nat × List Char)) : Option Nat :=
  match r with
  | some (n, []) => some n
  | _ => none

/-! ## 2. Dates -/

/-- The day number of a date text: a calendar date or a week date, with hyphens or without. -/
def date? (cs : List Char) : Option Nat := do
  let (year, r) ← number? 4 cs
  let (dashed, r) := match r with
    | '-' :: r => (true, r)
    | r => (false, r)
  match r with
  | 'W' :: r => do
    let (week, r) ← number? 2 r
    match r with
    | [] => Date.ordinalOfWeek? year week 1
    | r => Date.ordinalOfWeek? year week (← whole? (number? 1 (← hyphen? dashed r)))
  | r => do
    let (month, r) ← number? 2 r
    Date.ordinalOf? year month (← whole? (number? 2 (← hyphen? dashed r)))

/-- How many octets at the front are the date. A basic week date is told from its time by the
number of digits that follow the week's letter. -/
def dateLength (cs : List Char) : Option Nat :=
  let total := cs.length
  let digitAt (i : Nat) : Bool := (cs[i]?).any Chars.isAsciiDigit
  if total < 7 then none
  else if total = 7 then some 7
  else if cs[4]? = some '-' then
    if cs[5]? = some 'W' then
      if cs[8]? = some '-' then
        if total = 9 then none else if digitAt 10 then some 8 else some 10
      else some 8
    else some 10
  else if cs[4]? = some 'W' then
    let p := 7 + ((cs.drop 7).takeWhile Chars.isAsciiDigit).length
    some (if p < 9 then p else if p % 2 = 0 then 7 else 8)
  else some 8

/-- The number of octets of a character, by its first. -/
def width (c : Char) : Nat :=
  let n := c.toNat
  if n < 0x80 then 1 else if n < 0xE0 then 2 else if n < 0xF0 then 3 else 4

/-! ## 3. Clocks -/

/-- A time of day or an offset from UTC. -/
structure Clock where
  hour : Nat
  minute : Nat
  second : Nat
  micro : Nat
  deriving DecidableEq, Repr

/-- The microseconds of a clock. -/
def Clock.micros (c : Clock) : Nat :=
  ((c.hour * 60 + c.minute) * 60 + c.second) * 1000000 + c.micro

/-- A fraction of a second: up to six digits count, and more digits are skipped. Also tells whether
anything follows; `edge` is the octet after the text. -/
def fraction? (edge : Char) (cs : List Char) : Option (Nat × Bool) := do
  let n := min 6 cs.length
  let (v, r) ← number? n cs
  let r := r.dropWhile Chars.isAsciiDigit
  return (v * Nat.pow 10 (6 - n), r.headD edge != nul)

/-- The numbers of a clock of which `left` may still come, its microseconds, and whether anything
follows. `colons` says whether a colon stood after the hour. -/
def clockFrom? (edge : Char) : Nat → Bool → List Char → Option (List Nat × Nat × Bool)
  | 0, _, cs => (fraction? edge cs).map fun (micro, rest) => ([], micro, rest)
  | left + 1, colons, cs => do
    let (v, r) ← number? 2 cs
    let c := r.headD edge
    let colons := if left = 2 then c == ':' else colons
    if r.length ≤ 1 then return ([v], 0, c != nul)
    else if colons && c == ':' then do
      let (vs, micro, rest) ← clockFrom? edge left colons (r.drop 1)
      return (v :: vs, micro, rest)
    else if c == '.' || c == ',' then do
      let (micro, rest) ← fraction? edge (r.drop 1)
      return ([v], micro, rest)
    else if !colons then do
      let (vs, micro, rest) ← clockFrom? edge left colons r
      return (v :: vs, micro, rest)
    else none

/-- A clock, and whether anything follows it. -/
def clock? (edge : Char) (cs : List Char) : Option (Clock × Bool) := do
  let (vs, micro, rest) ← clockFrom? edge 3 true cs
  return (⟨vs.headD 0, (vs.drop 1).headD 0, (vs.drop 2).headD 0, micro⟩, rest)

/-- The microseconds by which an offset is ahead of UTC. An offset of no whole second is none. -/
def offset? (negative : Bool) (cs : List Char) : Option Int := do
  let (c, rest) ← clock? nul cs
  if rest then none
  else if c.hour = 0 ∧ c.minute = 0 ∧ c.second = 0 then some 0
  else if c.micros < 86400000000 then
    some (if negative then -(c.micros : Int) else (c.micros : Int))
  else none

/-- The time of day and the offset of the text after the separator, in microseconds. -/
def time? (cs : List Char) : Option (Nat × Int) := do
  let isEdge (c : Char) : Bool := c == '+' || c == '-' || c == 'Z'
  let zone := cs.dropWhile fun c => !isEdge c
  let (c, rest) ← clock? (zone.headD nul) (cs.takeWhile fun c => !isEdge c)
  let off ← match zone with
    | [] => if rest then none else some 0
    | 'Z' :: r => if r.headD nul = nul then some 0 else none
    | sign :: r => offset? (sign == '-') r
  if c.hour ≤ 23 ∧ c.minute ≤ 59 ∧ c.second ≤ 59 then some (c.micros, off) else none

/-! ## 4. Instants -/

/-- A final letter for UTC written as an offset. -/
def expandZulu (cs : List Char) : List Char :=
  match cs.getLast? with
  | some c => if c = 'Z' ∨ c = 'z' then cs.dropLast ++ ['+', '0', '0', ':', '0', '0'] else cs
  | none => cs

/-- The microseconds of a day number, a time of day and an offset. -/
def micros (ordinal time : Nat) (offset : Int) : Int :=
  ((ordinal : Int) - (Date.epochOrdinal : Int)) * 86400000000 + (time : Int) - offset

/-- The instant that a text denotes, in milliseconds rounded down. -/
def parseChars? (cs : List Char) : Option Int := do
  let os := octets (expandZulu (Chars.trim cs))
  let n ← dateLength os
  let day ← date? (os.take n)
  match os.drop n with
  | [] => some (Int.fdiv (micros day 0 0) 1000)
  | sep :: r => do
    let (time, offset) ← time? ((sep :: r).drop (width sep))
    some (Int.fdiv (micros day time offset) 1000)

/-- The instant that a text denotes, in milliseconds rounded down. Without an offset it is in
UTC. -/
def parse? (s : String) : Option Int :=
  parseChars? s.toList

/-- The first instant of year 1. -/
def least : Int := -62135596800000

/-- The last millisecond of year 9999. -/
def greatest : Int := 253402300799999

/-- The text `YYYY-MM-DDThh:mm:ss.mmmZ` of an instant in the years 1 to 9999. -/
def format? (ms : Int) : Option String :=
  if least ≤ ms ∧ ms ≤ greatest then
    let day := Int.fdiv ms 86400000
    let time := (ms - day * 86400000).toNat
    let d := Date.ofOrdinal (day + (Date.epochOrdinal : Int)).toNat
    some (String.ofList (Chars.padded 4 d.year ++ '-' :: Chars.padded 2 d.month ++
      '-' :: Chars.padded 2 d.day ++ 'T' :: Chars.padded 2 (time / 3600000) ++
      ':' :: Chars.padded 2 (time / 60000 % 60) ++ ':' :: Chars.padded 2 (time / 1000 % 60) ++
      '.' :: Chars.padded 3 (time % 1000) ++ ['Z']))
  else none

/-- The text of the epoch. -/
def epochText : String := "1970-01-01T00:00:00.000Z"

/-- A timestamp in its written form; `fallback` when it does not denote a formattable instant. -/
def normalize (s : Option String) (fallback : String) : String :=
  (((s.bind parse?).bind format?).getD fallback)

end Timestamp

end Recall
