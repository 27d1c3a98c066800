/-
Recall.Time.Calendar — dates of the Gregorian calendar, carried back to year 1.

Days are numbered: day 1 is 1 January of year 1, a Monday. `ordinal` counts the days before a date
and `ofOrdinal` finds the date again, by the lengths of the cycles of 400, 100, 4 and 1 years and
then month by month. Week dates are those of ISO 8601: weeks begin on Monday, and week 1 is the one
with the year's first Thursday.
-/
namespace Recall

/-- A calendar date. -/
structure Date where
  year : Nat
  month : Nat
  day : Nat
  deriving DecidableEq, Repr

namespace Date

/-! ## 1. Lengths -/

/-- Every fourth year is a leap year, but of the full centuries only every fourth one. -/
def isLeap (year : Nat) : Bool :=
  year % 4 == 0 && (year % 100 != 0 || year % 400 == 0)

/-- The number of days in a month, zero for what is not a month. -/
def daysInMonth (year : Nat) : Nat → Nat
  | 1 => 31
  | 2 => if isLeap year then 29 else 28
  | 3 => 31
  | 4 => 30
  | 5 => 31
  | 6 => 30
  | 7 => 31
  | 8 => 31
  | 9 => 30
  | 10 => 31
  | 11 => 30
  | 12 => 31
  | _ => 0

/-- The days of a year before the first of a month. -/
def daysBeforeMonth (year : Nat) : Nat → Nat
  | 0 => 0
  | m + 1 => daysBeforeMonth year m + daysInMonth year m

/-- The days before 1 January of a year. -/
def daysBeforeYear (year : Nat) : Nat :=
  let past := year - 1
  past * 365 + past / 4 - past / 100 + past / 400

/-- The dates that can be written: years 1 to 9999. -/
def isValid (d : Date) : Bool :=
  1 ≤ d.year && d.year ≤ 9999 && 1 ≤ d.day && d.day ≤ daysInMonth d.year d.month

/-! ## 2. Day numbers -/

/-- The number of a date's day. -/
def ordinal (d : Date) : Nat :=
  daysBeforeYear d.year + daysBeforeMonth d.year d.month + d.day

/-- The number of 31 December 9999. -/
def lastOrdinal : Nat := 3652059

/-- The number of 1 January 1970. -/
def epochOrdinal : Nat := 719163

/-- The month and the day in it, when `left` months of the year remain and `rest` days have passed
since the first of the next of them. -/
def monthFrom (year : Nat) : Nat → Nat → Nat × Nat
  | 0, rest => (12, rest + 1)
  | left + 1, rest =>
    let month := 12 - left
    if rest < daysInMonth year month then (month, rest + 1)
    else monthFrom year left (rest - daysInMonth year month)

/-- The date of a day number. -/
def ofOrdinal (n : Nat) : Date :=
  let days := n - 1
  let c400 := days / 146097
  let days := days % 146097
  let c100 := min (days / 36524) 3
  let days := days - c100 * 36524
  let c4 := days / 1461
  let days := days % 1461
  let c1 := min (days / 365) 3
  let days := days - c1 * 365
  let year := 400 * c400 + 100 * c100 + 4 * c4 + c1 + 1
  let (month, day) := monthFrom year 12 days
  ⟨year, month, day⟩

/-! ## 3. Week dates -/

/-- The day of the week, zero for Monday. -/
def weekday (ordinal : Nat) : Nat :=
  (ordinal + 6) % 7

/-- The day number of the Monday of week 1. -/
def firstMonday (year : Nat) : Nat :=
  let first := daysBeforeYear year + 1
  let w := weekday first
  if 3 < w then first + 7 - w else first - w

/-- A year has 53 weeks when it begins on a Thursday, or on a Wednesday in a leap year. -/
def weeksIn (year : Nat) : Nat :=
  let w := weekday (daysBeforeYear year + 1)
  if w = 3 ∨ (w = 2 ∧ isLeap year) then 53 else 52

/-- The day number of a week date. -/
def ordinalOfWeek? (year week day : Nat) : Option Nat :=
  if 1 ≤ year ∧ year ≤ 9999 ∧ 1 ≤ week ∧ week ≤ weeksIn year ∧ 1 ≤ day ∧ day ≤ 7 then
    let n := firstMonday year + (week - 1) * 7 + (day - 1)
    if n ≤ lastOrdinal then some n else none
  else none

/-- The day number of a calendar date, if there is such a date. -/
def ordinalOf? (year month day : Nat) : Option Nat :=
  let d : Date := ⟨year, month, day⟩
  if d.isValid then some d.ordinal else none

end Date

end Recall
