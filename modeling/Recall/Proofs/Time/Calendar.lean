/-
Recall.Proofs.Time.Calendar — every day number has its date.

`ofOrdinal` takes a day number apart by the cycles of 400, 100, 4 and 1 years. The last two are cut
off at three, because the fourth century of a cycle and the fourth year of a leap cycle are a day
longer; what is left over is then a day of that year, and a date of one of its months (`year_spec`,
`monthFrom_spec`). So the date of a day number has that number (`ordinal_ofOrdinal`), and is one
that can be written as long as the number is not past the year 9999 (`isValid_ofOrdinal`).

Years lie one behind the other in the day numbers, and months do in a year. So a number has one place
among them (`stretch_unique`), and a date that can be written is the date of its number
(`ofOrdinal_ordinal`).
-/
import Mathlib.Algebra.Group.Nat.Defs
import Mathlib.Order.Monotone.Basic
import Mathlib.Tactic.ByContra
import Recall.Time.Calendar

namespace Recall

namespace Date

/-! ## 1. Months -/

/-- The number of days in a year. -/
def daysInYear (year : Nat) : Nat :=
  if isLeap year then 366 else 365

theorem daysBeforeMonth_thirteen (year : Nat) : daysBeforeMonth year 13 = daysInYear year := by
  cases h : isLeap year <;> simp [daysBeforeMonth, daysInMonth, daysInYear, h]

/-- The rest of a year falls into one of the months that remain. -/
theorem monthFrom_spec (year : Nat) : ∀ (left rest : Nat), left ≤ 12 →
    daysBeforeMonth year (13 - left) + rest < daysBeforeMonth year 13 →
    1 ≤ (monthFrom year left rest).2 ∧
      (monthFrom year left rest).2 ≤ daysInMonth year (monthFrom year left rest).1 ∧
      daysBeforeMonth year (monthFrom year left rest).1 + (monthFrom year left rest).2 =
        daysBeforeMonth year (13 - left) + rest + 1
  | 0, rest, _, h => by
      exact absurd h (Nat.not_lt.mpr (Nat.le_add_right _ _))
  | left + 1, rest, hleft, h => by
      have hmonth : 13 - (left + 1) = 12 - left := by omega
      have hnext : 13 - left = (12 - left) + 1 := by omega
      rw [hmonth] at h ⊢
      rw [monthFrom]
      split
      · rename_i hin
        exact ⟨by omega, hin, rfl⟩
      · rename_i hout
        have hbefore : daysBeforeMonth year (13 - left) =
            daysBeforeMonth year (12 - left) + daysInMonth year (12 - left) := by
          rw [hnext, daysBeforeMonth]
        have ih := monthFrom_spec year left (rest - daysInMonth year (12 - left)) (by omega)
          (by omega)
        refine ⟨ih.1, ih.2.1, ih.2.2.trans ?_⟩
        omega

/-! ## 2. Years -/

/-- The days before a year, by the cycles that lie before it. -/
theorem daysBeforeYear_cycles (a : Nat) {b c d : Nat} (hb : b ≤ 3) (hc : c ≤ 24) (hd : d ≤ 3) :
    daysBeforeYear (400 * a + 100 * b + 4 * c + d + 1) =
      146097 * a + 36524 * b + 1461 * c + 365 * d := by
  simp only [daysBeforeYear]
  omega

/-- The last year of a cycle of four is a leap year, unless it ends a century that is not the last
of its cycle. -/
theorem isLeap_cycles (a : Nat) {b c : Nat} (hc : c ≤ 24) (h : c = 24 → b = 3) :
    isLeap (400 * a + 100 * b + 4 * c + 3 + 1) = true := by
  simp only [isLeap, Bool.and_eq_true, Bool.or_eq_true, beq_iff_eq, bne_iff_ne]
  omega

/-- The date of a day number is found in its year by what is left of the number. -/
theorem year_spec {n : Nat} (hn : 0 < n) : ∃ year rest, 0 < year ∧
    n = daysBeforeYear year + rest + 1 ∧ rest < daysInYear year ∧
    ofOrdinal n = ⟨year, (monthFrom year 12 rest).1, (monthFrom year 12 rest).2⟩ := by
  obtain ⟨days, rfl⟩ : ∃ days, n = days + 1 := ⟨n - 1, by omega⟩
  -- `a` cycles of 400 years, `b` centuries, `c` cycles of four years and `d` years are past.
  obtain ⟨a, ha⟩ : ∃ a, a = days / 146097 := ⟨_, rfl⟩
  obtain ⟨b, hb⟩ : ∃ b, b = min (days % 146097 / 36524) 3 := ⟨_, rfl⟩
  obtain ⟨c, hc⟩ : ∃ c, c = (days % 146097 - b * 36524) / 1461 := ⟨_, rfl⟩
  obtain ⟨d, hd⟩ : ∃ d, d = min ((days % 146097 - b * 36524) % 1461 / 365) 3 := ⟨_, rfl⟩
  obtain ⟨rest, hrest⟩ : ∃ rest, rest = (days % 146097 - b * 36524) % 1461 - d * 365 := ⟨_, rfl⟩
  have hbefore := daysBeforeYear_cycles a (b := b) (c := c) (d := d) (by omega) (by omega) (by omega)
  refine ⟨400 * a + 100 * b + 4 * c + d + 1, rest, by omega, by omega, ?_, ?_⟩
  · rw [daysInYear]
    split
    · omega
    · rename_i hleap
      -- A day more than 365 is left only at the end of a cycle, and its last year is a leap year.
      by_contra hlong
      have hthree : d = 3 := by omega
      subst hthree
      exact hleap (isLeap_cycles a (by omega) (by omega))
  · simp only [ofOrdinal, Nat.add_sub_cancel, ← ha, ← hb, ← hc, ← hd, ← hrest]

/-! ## 3. Dates -/

/-- The date of a day number is on a day of its month, and has that number. -/
theorem ofOrdinal_spec {n : Nat} (hn : 0 < n) :
    0 < (ofOrdinal n).year ∧ 1 ≤ (ofOrdinal n).day ∧
      (ofOrdinal n).day ≤ daysInMonth (ofOrdinal n).year (ofOrdinal n).month ∧
      (ofOrdinal n).ordinal = n := by
  obtain ⟨year, rest, hyear, rfl, hrest, heq⟩ := year_spec hn
  have hbound : daysBeforeMonth year (13 - 12) + rest < daysBeforeMonth year 13 := by
    rw [daysBeforeMonth_thirteen]
    simpa [daysBeforeMonth, daysInMonth] using hrest
  have hfirst : daysBeforeMonth year (13 - 12) = 0 := rfl
  obtain ⟨hlow, hhigh, hsum⟩ := monthFrom_spec year 12 rest (by decide) hbound
  rw [heq]
  refine ⟨hyear, hlow, hhigh, ?_⟩
  simp only [ordinal]
  omega

theorem ordinal_ofOrdinal {n : Nat} (hn : 0 < n) : (ofOrdinal n).ordinal = n :=
  (ofOrdinal_spec hn).2.2.2

/-- Every day number up to the last has a date that can be written. -/
theorem isValid_ofOrdinal {n : Nat} (hn : 0 < n) (hlast : n ≤ lastOrdinal) :
    (ofOrdinal n).isValid = true := by
  obtain ⟨hyear, hlow, hhigh, hsum⟩ := ofOrdinal_spec hn
  have hbefore : daysBeforeYear (ofOrdinal n).year < lastOrdinal := by
    rw [ordinal] at hsum
    omega
  have hlate : (ofOrdinal n).year ≤ 9999 := by
    rw [daysBeforeYear, lastOrdinal] at hbefore
    omega
  simp only [isValid, Bool.and_eq_true, decide_eq_true_eq]
  exact ⟨⟨⟨hyear, hlate⟩, hlow⟩, hhigh⟩

theorem daysInMonth_le (year month : Nat) :
    daysInMonth year month ≤ 31 ∧ (12 < month → daysInMonth year month = 0) := by
  fun_cases daysInMonth year month <;> omega

/-- The parts of a date that can be written have no more than four, two and two digits. -/
theorem bounds_of_isValid {d : Date} (h : d.isValid = true) :
    d.year < 10 ^ 4 ∧ d.month < 10 ^ 2 ∧ d.day < 10 ^ 2 := by
  have hmonth := daysInMonth_le d.year d.month
  simp only [isValid, Bool.and_eq_true, decide_eq_true_eq] at h
  omega

/-! ## 4. Dates and their day numbers -/

/-- Of stretches that lie one behind the other, a number has one place in one of them. -/
theorem stretch_unique {start : Nat → Nat} (hmono : Monotone start) {i j a b : Nat}
    (ha : 0 < a) (hi : start i + a ≤ start (i + 1)) (hb : 0 < b) (hj : start j + b ≤ start (j + 1))
    (h : start i + a = start j + b) : i = j ∧ a = b := by
  rcases Nat.lt_trichotomy i j with hij | rfl | hij
  · have hnext : start (i + 1) ≤ start j := hmono hij
    omega
  · exact ⟨rfl, by omega⟩
  · have hnext : start (j + 1) ≤ start i := hmono hij
    omega

/-- A year has the days by which the cycles of 4, 100 and 400 years go on. -/
theorem daysBeforeYear_succ {year : Nat} (h : 0 < year) :
    daysBeforeYear (year + 1) = daysBeforeYear year + daysInYear year := by
  obtain ⟨past, rfl⟩ : ∃ past, year = past + 1 := ⟨year - 1, by omega⟩
  have hcentury : (past + 1) % 100 = 0 → (past + 1) % 4 = 0 := by omega
  have hfourth : (past + 1) % 400 = 0 → (past + 1) % 100 = 0 := by omega
  have hle : past / 100 ≤ past / 4 := by omega
  simp only [daysBeforeYear, daysInYear, isLeap, Nat.add_sub_cancel, Nat.succ_div,
    Nat.dvd_iff_mod_eq_zero]
  by_cases h4 : (past + 1) % 4 = 0 <;> by_cases h100 : (past + 1) % 100 = 0 <;>
    by_cases h400 : (past + 1) % 400 = 0 <;> simp [h4, h100, h400] <;> omega

theorem daysBeforeYear_mono : Monotone daysBeforeYear := by
  refine monotone_nat_of_le_succ fun year => ?_
  simp only [daysBeforeYear]
  omega

theorem daysBeforeMonth_mono (year : Nat) : Monotone (daysBeforeMonth year) :=
  monotone_nat_of_le_succ fun month => by
    rw [daysBeforeMonth]
    exact Nat.le_add_right _ _

/-- A date is a day of a month of a year. The years begin with 1 and do not end. -/
def IsDay (d : Date) : Prop :=
  0 < d.year ∧ 0 < d.day ∧ d.day ≤ daysInMonth d.year d.month

theorem isValid_iff {d : Date} : d.isValid = true ↔ d.IsDay ∧ d.year ≤ 9999 := by
  simp only [isValid, IsDay, Bool.and_eq_true, decide_eq_true_eq]
  omega

/-- A day lies in its month and, with the months before, in its year. -/
theorem IsDay.place {d : Date} (h : d.IsDay) :
    daysBeforeMonth d.year d.month + d.day ≤ daysBeforeMonth d.year (d.month + 1) ∧
      daysBeforeYear d.year + (daysBeforeMonth d.year d.month + d.day) ≤
        daysBeforeYear (d.year + 1) := by
  obtain ⟨hyear, hday, hlast⟩ := h
  have hmonth := daysInMonth_le d.year d.month
  have hin : daysBeforeMonth d.year d.month + d.day ≤ daysBeforeMonth d.year (d.month + 1) := by
    rw [daysBeforeMonth]
    omega
  have htwelve : d.month + 1 ≤ 13 := by omega
  have hyearly := daysBeforeMonth_mono d.year htwelve
  rw [daysBeforeMonth_thirteen] at hyearly
  rw [daysBeforeYear_succ hyear]
  exact ⟨hin, by omega⟩

/-- Two days have two numbers. -/
theorem eq_of_ordinal_eq {d e : Date} (hd : d.IsDay) (he : e.IsDay) (h : d.ordinal = e.ordinal) :
    d = e := by
  obtain ⟨hmonth, hyear⟩ := hd.place
  obtain ⟨hmonth', hyear'⟩ := he.place
  have hday : 0 < d.day := hd.2.1
  have hday' : 0 < e.day := he.2.1
  simp only [ordinal, Nat.add_assoc] at h
  obtain ⟨heq, hrest⟩ := stretch_unique daysBeforeYear_mono (by omega) hyear (by omega) hyear' h
  rw [← heq] at hmonth' hrest
  obtain ⟨hm, hlast⟩ := stretch_unique (daysBeforeMonth_mono d.year) hday hmonth hday' hmonth' hrest
  cases d
  cases e
  simp_all

theorem ordinal_bounds {d : Date} (h : d.isValid = true) :
    0 < d.ordinal ∧ d.ordinal ≤ lastOrdinal := by
  obtain ⟨hd, hlast⟩ := isValid_iff.mp h
  have hday : 0 < d.day := hd.2.1
  have hlate : d.year + 1 ≤ 10000 := by omega
  have hend : daysBeforeYear 10000 = lastOrdinal := by decide
  have hyear := hd.place.2
  have hbefore := daysBeforeYear_mono hlate
  simp only [ordinal]
  omega

/-- A date that can be written is the date of its number. -/
theorem ofOrdinal_ordinal {d : Date} (h : d.isValid = true) : ofOrdinal d.ordinal = d := by
  obtain ⟨hpos, hlast⟩ := ordinal_bounds h
  exact eq_of_ordinal_eq (isValid_iff.mp (isValid_ofOrdinal hpos hlast)).1 (isValid_iff.mp h).1
    (ordinal_ofOrdinal hpos)

end Date

end Recall
