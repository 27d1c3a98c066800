/-
Recall.Proofs.Time.Reading — the instant that a stamp denotes.

`parse?_stamp` compares the reader with plain counting. Take the days from 1 January 1970 to the date,
counted one by one and backwards for earlier dates; the seconds since midnight; the seconds of the
offset; and the fraction as a rational number. The reader gives the milliseconds that they come to,
rounded down, also before 1970, where the number is negative. If there is no such day it gives nothing.

The reader itself computes with whole microseconds, and divides at the end. A fraction of up to six
digits is a whole number of them (`microsOf_eq`), so nothing is lost before the division.
-/
import Mathlib.Data.Rat.Floor
import Recall.Proofs.Time.Count
import Recall.Proofs.Time.Stamp

namespace Recall

namespace Timestamp

/-- The fraction of a second behind the point. -/
def Stamp.fractionOfSecond (s : Stamp) : ℚ :=
  (Chars.ofDigits (s.fraction.map fun c => c.toNat - '0'.toNat) : ℚ) / 10 ^ s.fraction.length

/-- The milliseconds from the first instant of a day, counted from 1970 on, to a stamp on that day. -/
def Stamp.millis (s : Stamp) (days : Int) : ℚ :=
  ((days * 86400 + s.seconds - s.zone.seconds : Int) : ℚ) * 1000 + s.fractionOfSecond * 1000

theorem microsOf_eq {s : Stamp} (h : s.fraction.length ≤ 6) :
    (microsOf s.fraction : ℚ) = s.fractionOfSecond * 1000000 := by
  have hpow : (10 : ℚ) ^ (6 - s.fraction.length) * 10 ^ s.fraction.length = 1000000 := by
    rw [← pow_add, Nat.sub_add_cancel h]
    norm_num
  rw [microsOf, Stamp.fractionOfSecond, Nat.pow_eq, Nat.cast_mul, Nat.cast_pow, Nat.cast_ofNat,
    ← hpow]
  field_simp

/-- The division at the end rounds down. -/
theorem fdiv_micros {s : Stamp} (h : s.fraction.length ≤ 6) (day : Nat) :
    Int.fdiv (micros day s.micros (s.zone.seconds * 1000000)) 1000 =
      ⌊s.millis ((day : Int) - (Date.epochOrdinal : Int))⌋ := by
  have hwhole : s.millis ((day : Int) - (Date.epochOrdinal : Int)) =
      (micros day s.micros (s.zone.seconds * 1000000) : ℚ) / (1000 : Nat) := by
    have hfraction := microsOf_eq h
    simp only [Stamp.millis, micros, Stamp.micros]
    push_cast
    rw [hfraction]
    ring
  rw [hwhole, Rat.floor_intCast_div_natCast, Int.fdiv_eq_ediv_of_nonneg _ (by decide)]
  rfl

/-- **Timestamps are read exactly.** Let a stamp stand between blanks. If there is such a day, then its
days from 1970 can be counted in one way, and the instant is what they and the stamp come to in
milliseconds, rounded down. If there is no such day, then no instant is read. -/
theorem parse?_stamp {s : Stamp} (hs : s.Proper) {before after : List Char}
    (hbefore : ∀ c ∈ before, Chars.isBlank c = true) (hafter : ∀ c ∈ after, Chars.isBlank c = true) :
    (s.date.isValid = true → ∃ days, (∀ n, Date.Counted ⟨1970, 1, 1⟩ s.date n ↔ n = days) ∧
      parse? (String.ofList (before ++ s.text ++ after)) = some ⌊s.millis days⌋) ∧
    (s.date.isValid = false → parse? (String.ofList (before ++ s.text ++ after)) = none) := by
  have hread := parseChars?_stamp hs hbefore hafter
  rw [parse?, String.toList_ofList, hread]
  constructor
  · intro hvalid
    have hday : Date.ordinalOf? s.date.year s.date.month s.date.day = some s.date.ordinal :=
      if_pos hvalid
    have hepoch : Date.IsDay ⟨1970, 1, 1⟩ := by
      refine ⟨?_, ?_, ?_⟩ <;> decide
    refine ⟨(s.date.ordinal : Int) - (Date.epochOrdinal : Int), ?_, ?_⟩
    · intro n
      exact Date.counted_iff hepoch (Date.isValid_iff.mp hvalid).1
    · rw [hday, Option.map_some, fdiv_micros hs.places]
  · intro hinvalid
    have hnone : Date.ordinalOf? s.date.year s.date.month s.date.day = none :=
      if_neg (by simp [hinvalid])
    rw [hnone, Option.map_none]

/-- Ten minutes past midnight, with an offset of nearly a day, on the last of February in a year. -/
def lateFebruary (year : Nat) : Stamp where
  date := ⟨year, 2, 29⟩
  hour := 0
  minute := 10
  second := 0
  fraction := ['1', '2', '3', '4']
  zone := .offset false 23 59

theorem proper_lateFebruary {year : Nat} (h : year < 10 ^ 4) : (lateFebruary year).Proper where
  date := ⟨h, by simp [lateFebruary], by simp [lateFebruary]⟩
  hour := by simp [lateFebruary]
  minute := by simp [lateFebruary]
  second := by simp [lateFebruary]
  digits := by simp [lateFebruary, Chars.isAsciiDigit]
  places := by simp [lateFebruary]
  zone := by simp [lateFebruary, Zone.Proper]

/-- A day of a leap year before 1970, and one that a common year does not have. -/
theorem parse?_stamp_lateFebruary :
    (lateFebruary 1968).Proper ∧ (lateFebruary 1968).date.isValid = true ∧
      parse? " 1968-02-29T00:10:00.1234+23:59\n" = some (-58146539877) ∧
      (lateFebruary 2023).Proper ∧ (lateFebruary 2023).date.isValid = false ∧
      parse? " 2023-02-29T00:10:00.1234+23:59\n" = none := by
  have hleap : (lateFebruary 1968).Proper := proper_lateFebruary (by decide)
  have hcommon : (lateFebruary 2023).Proper := proper_lateFebruary (by decide)
  have hbefore : ∀ c ∈ [' '], Chars.isBlank c = true :=
    List.forall_mem_singleton.mpr (by decide)
  have hafter : ∀ c ∈ ['\n'], Chars.isBlank c = true :=
    List.forall_mem_singleton.mpr (by decide)
  have htext : ∀ year, String.ofList ([' '] ++ (lateFebruary year).text ++ ['\n']) =
      " " ++ String.ofList (Chars.padded 4 year) ++ "-02-29T00:10:00.1234+23:59\n" := by
    intro year
    apply String.toList_injective
    simp [lateFebruary, Stamp.text, Stamp.front, Stamp.clock, dateText]
    rfl
  have hcount : Date.Counted ⟨1970, 1, 1⟩ (lateFebruary 1968).date (-672) :=
    ⟨672, .inr ⟨rfl, by decide +kernel⟩⟩
  have hdigits : Chars.ofDigits ((lateFebruary 1968).fraction.map fun c => c.toNat - '0'.toNat) =
      1234 := by decide
  have hfloor : ⌊(lateFebruary 1968).millis (-672)⌋ = -58146539877 := by
    rw [Int.floor_eq_iff, Stamp.millis, Stamp.fractionOfSecond, hdigits]
    norm_num [lateFebruary, Stamp.seconds, Zone.seconds]
  obtain ⟨days, hdays, hread⟩ := (parse?_stamp hleap hbefore hafter).1 (by decide)
  obtain rfl : -672 = days := (hdays _).mp hcount
  have hnone := (parse?_stamp hcommon hbefore hafter).2 (by decide)
  rw [htext] at hread hnone
  exact ⟨hleap, by decide, hfloor ▸ hread, hcommon, by decide, hnone⟩

end Timestamp

end Recall
