/-
Recall.Proofs.Time.Count — counting days one by one.

A day number is computed from cycles of years and from the lengths of months. What it should be is
plainer: the day after has the next number. `next` is the day after by the lengths of months, with leap
years by the Gregorian rule, and `Counted` counts such steps from one date to another, backwards where
the other is earlier. Since each step adds one to the day number (`ordinal_next`), any number of steps
adds as many (`ordinal_iterate_next`), and the count between two days is the difference of their numbers
(`counted_iff`).
-/
import Mathlib.Logic.Function.Iterate
import Mathlib.Tactic.IntervalCases
import Recall.Proofs.Time.Calendar

namespace Recall

namespace Date

/-- The day after. -/
def next (d : Date) : Date :=
  if d.day < daysInMonth d.year d.month then ⟨d.year, d.month, d.day + 1⟩
  else if d.month < 12 then ⟨d.year, d.month + 1, 1⟩
  else ⟨d.year + 1, 1, 1⟩

/-- Counting day by day from one date to the other gives `n`, a negative number when it goes
backwards. -/
def Counted (d e : Date) (n : Int) : Prop :=
  ∃ k : Nat, (n = k ∧ next^[k] d = e) ∨ (n = -k ∧ next^[k] e = d)

/-! ## 1. One day -/

/-- The months from the first to the twelfth are those that have days. -/
theorem daysInMonth_pos_iff {year month : Nat} :
    0 < daysInMonth year month ↔ 1 ≤ month ∧ month ≤ 12 := by
  constructor
  · intro h
    have hlate := (daysInMonth_le year month).2
    have hne : month ≠ 0 := by
      rintro rfl
      simp [daysInMonth] at h
    omega
  · rintro ⟨hlow, hhigh⟩
    interval_cases month <;> simp only [daysInMonth] <;> grind

theorem isDay_next {d : Date} (h : d.IsDay) : (next d).IsDay := by
  obtain ⟨hyear, hday, hlast⟩ := h
  obtain ⟨hlow, -⟩ := daysInMonth_pos_iff.mp (Nat.lt_of_lt_of_le hday hlast)
  unfold next
  split
  · rename_i hin
    exact ⟨hyear, Nat.succ_pos _, hin⟩
  · split
    · rename_i hmonth
      exact ⟨hyear, Nat.one_pos, daysInMonth_pos_iff.mpr ⟨Nat.le_succ_of_le hlow, hmonth⟩⟩
    · exact ⟨Nat.succ_pos _, Nat.one_pos, daysInMonth_pos_iff.mpr (by simp)⟩

/-- The day after has the next number: in a month, from month to month, and from year to year. -/
theorem ordinal_next {d : Date} (h : d.IsDay) : (next d).ordinal = d.ordinal + 1 := by
  obtain ⟨hyear, hday, hlast⟩ := h
  obtain ⟨-, hhigh⟩ := daysInMonth_pos_iff.mp (Nat.lt_of_lt_of_le hday hlast)
  unfold next
  split
  · rfl
  · rename_i hend
    have hfull : d.day = daysInMonth d.year d.month := by omega
    split
    · simp only [ordinal, daysBeforeMonth, hfull]
      omega
    · rename_i hmonth
      have htwelve : d.month = 12 := by omega
      have hmonths : daysBeforeMonth d.year 12 + daysInMonth d.year 12 = daysInYear d.year := by
        rw [← daysBeforeMonth_thirteen]
        rfl
      have hfirst : daysBeforeMonth (d.year + 1) 1 = 0 := rfl
      simp only [ordinal, daysBeforeYear_succ hyear, hfirst, hfull, htwelve]
      omega

/-! ## 2. Many days -/

theorem isDay_iterate_next {d : Date} (h : d.IsDay) (k : Nat) : (next^[k] d).IsDay := by
  induction k with
  | zero => exact h
  | succ k ih =>
    rw [Function.iterate_succ_apply']
    exact isDay_next ih

theorem ordinal_iterate_next {d : Date} (h : d.IsDay) (k : Nat) :
    (next^[k] d).ordinal = d.ordinal + k := by
  induction k with
  | zero => rfl
  | succ k ih =>
    rw [Function.iterate_succ_apply', ordinal_next (isDay_iterate_next h k), ih]
    omega

/-- As many days on as the numbers of two days differ by stands the other day. -/
theorem iterate_next_eq {d e : Date} (hd : d.IsDay) (he : e.IsDay) {k : Nat}
    (h : d.ordinal + k = e.ordinal) : next^[k] d = e :=
  eq_of_ordinal_eq (isDay_iterate_next hd k) he ((ordinal_iterate_next hd k).trans h)

/-- The count between two days is the difference of their numbers. -/
theorem counted_iff {d e : Date} (hd : d.IsDay) (he : e.IsDay) {n : Int} :
    Counted d e n ↔ n = (e.ordinal : Int) - (d.ordinal : Int) := by
  constructor
  · rintro ⟨k, ⟨rfl, rfl⟩ | ⟨rfl, rfl⟩⟩
    · have := ordinal_iterate_next hd k
      omega
    · have := ordinal_iterate_next he k
      omega
  · intro h
    refine ⟨n.natAbs, ?_⟩
    rcases Int.le_total 0 n with hn | hn
    · exact .inl ⟨by omega, iterate_next_eq hd he (by omega)⟩
    · exact .inr ⟨by omega, iterate_next_eq he hd (by omega)⟩

end Date

end Recall
