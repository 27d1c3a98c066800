/-
Recall.Decode.Coerce — one stored field at a time.

Stored data may be corrupt, stale or edited by hand. Each function here takes any value and gives
one of the type a record needs, falling back to a default. Only the time of day has values that are
refused outright: digit signs that are no decimal digits.
-/
import Recall.Json.Value
import Recall.Text.Case
import Recall.Text.Digit
import Recall.Time.Timestamp

namespace Recall

/-- Why stored records cannot be decoded. -/
inductive DecodeError where
  /-- A time of day has digit signs that do not make a number. -/
  | badClock (text : String)
  deriving DecidableEq, Repr

namespace Decode

/-! ## 1. Texts -/

/-- A string, or a default. -/
def text (j : Json) (fallback : String) : String :=
  j.str?.getD fallback

/-- A string that is not blank, as it is. -/
def text? (j : Json) : Option String :=
  j.str?.filter fun s => !Text.isBlank s

/-- A string that is not blank, trimmed. -/
def trimmed? (j : Json) : Option String :=
  (text? j).map Text.trim

/-- A word of a vocabulary, or a default. -/
def choice (vocabulary : List String) (fallback : String) (j : Json) : String :=
  (j.str?.filter vocabulary.contains).getD fallback

/-- The trimmed strings of a list that are not blank, each once. -/
def textList (j : Json) : List String :=
  match j with
  | .arr items => Text.distinct (items.filterMap trimmed?)
  | _ => []

/-- A timestamp in its written form. -/
def timestamp (j : Json) (fallback : String) : String :=
  Timestamp.normalize j.str? fallback

/-! ## 2. Numbers and flags -/

/-- A truth value; anything else is false. -/
def flag : Json → Bool
  | .bool b => b
  | _ => false

/-- A number that is not negative, cut to an integer; anything else is zero. -/
def amount (j : Json) : Int :=
  let n := match j with
    | .int n => n
    | .float x => x.truncate?.getD 0
    | _ => 0
  if n < 0 then 0 else n

/-- An integer between two bounds. -/
def bounded? (low high : Int) : Json → Option Int
  | .int n => if low ≤ n ∧ n ≤ high then some n else none
  | _ => none

/-! ## 3. Times of day -/

/-- The time of day when there is no usable one. -/
def defaultClock : String := "09:00"

/-- The number that digit signs make, an error when they make none. -/
def clockNumber (s : String) (cs : List Char) : Except DecodeError Nat :=
  match Chars.natural? cs with
  | some n => .ok n
  | none => .error (.badClock s)

/-- Whether a text is made of digit signs. -/
def allDigitSigns (cs : List Char) : Bool :=
  !cs.isEmpty && cs.all Chars.isDigitSign

/-- The time of day `hh:mm` of a text `h:mm`. The hour is written anew and the minutes are kept as
they are. -/
def clock (j : Json) : Except DecodeError String := do
  match j.str? with
  | none => return defaultClock
  | some s =>
    let cs := Chars.trim s.toList
    let hours := cs.takeWhile (· != ':')
    match cs.dropWhile (· != ':') with
    | [] => return defaultClock
    | _ :: minutes =>
      if allDigitSigns hours && allDigitSigns minutes && minutes.length == 2 then
        let h ← clockNumber s hours
        if 23 < h then return defaultClock
        let m ← clockNumber s minutes
        if 59 < m then return defaultClock
        return String.ofList (Chars.padded 2 h ++ ':' :: minutes)
      else return defaultClock

end Decode

end Recall
