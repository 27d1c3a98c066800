/-
Recall.Proofs.Number.Binary64 — rounding to the binary64 format.

What a ratio is rounded to is seen from its exponent alone: the least at which its mantissa is below
`2 ^ 53` (`IsExponent`). At this exponent the mantissa is the nearest integer (`abs_roundDiv_sub_le`),
so the error is half of the spacing there, and a ratio that has an integer for its mantissa is not
rounded (`ofRatio_eq`). Of two positive numbers of which one is larger by more than the spacing, the
larger one stays larger, unless both are beyond the largest finite number (`ofRatio_less`).
-/
import Mathlib.Algebra.Order.Field.Power
import Mathlib.Algebra.Order.Ring.Rat
import Mathlib.Data.Rat.Cast.Order
import Mathlib.Tactic.FieldSimp
import Mathlib.Tactic.Linarith
import Mathlib.Tactic.NormNum
import Mathlib.Tactic.Positivity
import Mathlib.Tactic.Ring
import Recall.Number.Binary64

namespace Recall

namespace Binary64

/-! ## 1. Numbers -/

/-- A mantissa at an exponent. -/
def magnitude (m : Nat) (e : Int) : ℚ :=
  m * 2 ^ e

/-- A finite number of the format. Of the mantissas and exponents for a number those with the least
exponent are meant. -/
structure Valid (m : Nat) (e : Int) : Prop where
  mantissa_lt : m < 2 ^ 53
  le_exponent : -1074 ≤ e
  exponent_le : e ≤ 971
  normal : e = -1074 ∨ 2 ^ 52 ≤ m

/-- The rational number that a finite number is. -/
def rational (negative : Bool) (m : Nat) (e : Int) : ℚ :=
  if negative then -magnitude m e else magnitude m e

/-- One number is less than another. -/
inductive Less : Binary64 → Binary64 → Prop where
  | finite {s s' : Bool} {m m' : Nat} {e e' : Int} : rational s m e < rational s' m' e' →
      Less (.finite s m e) (.finite s' m' e')
  | finite_infinite {s : Bool} {m : Nat} {e : Int} : Less (.finite s m e) (.infinite false)
  | infinite_finite {s : Bool} {m : Nat} {e : Int} : Less (.infinite true) (.finite s m e)
  | infinite_infinite : Less (.infinite true) (.infinite false)

/-- A finite number from zero up. Zero may have either sign. -/
inductive FromZero : Binary64 → Prop where
  | plus (m : Nat) (e : Int) : FromZero (.finite false m e)
  | minusZero (e : Int) : FromZero (.finite true 0 e)

/-- A number without its sign. -/
def abs : Binary64 → Binary64
  | .finite _ m e => .finite false m e
  | .infinite _ => .infinite false
  | .nan => .nan

def minusZero : Binary64 := .finite true 0 (-1074)

theorem two_zpow_pos (e : Int) : (0 : ℚ) < 2 ^ e :=
  zpow_pos (by norm_num) e

theorem two_pow_toNat {e : Int} (h : 0 ≤ e) : (2 : ℚ) ^ e.toNat = 2 ^ e := by
  rw [← zpow_natCast, Int.toNat_of_nonneg h]

theorem cast_pow (n : Nat) : ((Nat.pow 2 n : Nat) : ℚ) = 2 ^ n :=
  Nat.cast_pow 2 n

theorem ratio_spec (m : Nat) (e : Int) :
    0 < (ratio m e).2 ∧ ((ratio m e).1 : ℚ) / (ratio m e).2 = magnitude m e := by
  rw [ratio, magnitude]
  split
  · rename_i he
    refine ⟨Nat.one_pos, ?_⟩
    rw [Nat.cast_one, div_one, Nat.cast_mul, cast_pow, two_pow_toNat he]
  · rename_i he
    refine ⟨Nat.pow_pos (by decide), ?_⟩
    rw [cast_pow, two_pow_toNat (by omega), zpow_neg, div_inv_eq_mul]

theorem scaled_spec (num : Nat) {den : Nat} (hden : 0 < den) (e : Int) :
    0 < (scaled num den e).2 ∧
      ((scaled num den e).1 : ℚ) / (scaled num den e).2 = (num : ℚ) / den / 2 ^ e := by
  rw [scaled]
  split
  · rename_i he
    refine ⟨Nat.mul_pos hden (Nat.pow_pos (by decide)), ?_⟩
    rw [Nat.cast_mul, cast_pow, two_pow_toNat he, div_div]
  · rename_i he
    refine ⟨hden, ?_⟩
    rw [Nat.cast_mul, cast_pow, two_pow_toNat (by omega), zpow_neg, mul_div_right_comm,
      div_eq_mul_inv (_ / _)]

/-! ## 2. The nearest integer -/

theorem roundDiv_mul {d : Nat} (hd : 0 < d) (k : Nat) : roundDiv (k * d) d = k := by
  rw [roundDiv, Nat.mul_mod_left, Nat.mul_div_cancel k hd, if_pos (by omega)]

theorem roundDiv_bounds (n : Nat) {d : Nat} (hd : 0 < d) :
    2 * n ≤ 2 * (d * roundDiv n d) + d ∧ 2 * (d * roundDiv n d) ≤ 2 * n + d := by
  have hn := Nat.div_add_mod n d
  have hr := Nat.mod_lt n hd
  unfold roundDiv
  dsimp only
  generalize n / d = q at *
  generalize n % d = r at *
  split
  · omega
  · split
    · rw [Nat.mul_add_one]
      omega
    · rcases Nat.mod_two_eq_zero_or_one q with hq | hq
      · rw [hq, Nat.add_zero]
        omega
      · rw [hq, Nat.mul_add_one]
        omega

/-- The nearest integer is at most one half away. -/
theorem abs_roundDiv_sub_le (n : Nat) {d : Nat} (hd : 0 < d) :
    |(roundDiv n d : ℚ) - n / d| ≤ 1 / 2 := by
  have hdq : (0 : ℚ) < d := Nat.cast_pos.mpr hd
  obtain ⟨hlow, hhigh⟩ := roundDiv_bounds n hd
  have hlowq : 2 * (n : ℚ) ≤ 2 * (d * roundDiv n d) + d := by exact_mod_cast hlow
  have hhighq : 2 * (d * (roundDiv n d : ℚ)) ≤ 2 * n + d := by exact_mod_cast hhigh
  rw [abs_le]
  constructor
  · rw [neg_le_sub_iff_le_add, div_le_iff₀ hdq]
    linarith
  · rw [sub_le_iff_le_add', ← sub_le_iff_le_add, le_div_iff₀ hdq]
    linarith

/-! ## 3. Exponents -/

/-- The least exponent at which a number has a mantissa below `2 ^ 53`, and -1074 at least. -/
structure IsExponent (q : ℚ) (e : Int) : Prop where
  le_exponent : -1074 ≤ e
  lt : q < 2 ^ 53 * 2 ^ e
  normal : e = -1074 ∨ 2 ^ 52 * 2 ^ e ≤ q

theorem two_zpow_succ (e : Int) : (2 : ℚ) ^ (e + 1) = 2 * 2 ^ e := by
  rw [zpow_add_one₀ (by norm_num), mul_comm]

theorem two_zpow_le {e e' : Int} (h : e ≤ e') : (2 : ℚ) ^ e ≤ 2 ^ e' :=
  zpow_le_zpow_right₀ (by norm_num) h

/-- A larger number has no smaller exponent. -/
theorem IsExponent.mono {x y : ℚ} {e e' : Int} (h : IsExponent x e) (h' : IsExponent y e')
    (hxy : x ≤ y) : e ≤ e' := by
  by_contra hlt
  have hstep : (2 : ℚ) ^ (e' + 1) ≤ 2 ^ e := two_zpow_le (by omega)
  rw [two_zpow_succ] at hstep
  have hnormal := h.normal.resolve_left (by have := h'.le_exponent; omega)
  linarith [h'.lt]

theorem IsExponent.unique {q : ℚ} {e e' : Int} (h : IsExponent q e) (h' : IsExponent q e') :
    e = e' :=
  le_antisymm (h.mono h' le_rfl) (h'.mono h le_rfl)

theorem isExponent_zero : IsExponent 0 (-1074) :=
  ⟨le_rfl, by positivity, Or.inl rfl⟩

theorem valid_zero : Valid 0 (-1074) :=
  ⟨by norm_num, le_rfl, by norm_num, Or.inl rfl⟩

theorem Valid.isExponent {m : Nat} {e : Int} (h : Valid m e) : IsExponent (magnitude m e) e where
  le_exponent := h.le_exponent
  lt := by
    have hm : (m : ℚ) < 2 ^ 53 := by exact_mod_cast h.mantissa_lt
    exact mul_lt_mul_of_pos_right hm (two_zpow_pos e)
  normal := by
    refine h.normal.imp id fun hm => ?_
    have hmq : (2 : ℚ) ^ 52 ≤ m := by exact_mod_cast hm
    exact mul_le_mul_of_nonneg_right hmq (two_zpow_pos e).le

/-- The exponent to start with is right or one too small. -/
theorem guess_bounds {num den : Nat} (hnum : num ≠ 0) (hden : 0 < den) :
    2 ^ 52 * (2 : ℚ) ^ ((num.log2 : Int) - den.log2 - 53) ≤ num / den ∧
      (num : ℚ) / den < 2 * (2 ^ 53 * 2 ^ ((num.log2 : Int) - den.log2 - 53)) := by
  have hdenq : (0 : ℚ) < den := Nat.cast_pos.mpr hden
  have hnumlow : (2 : ℚ) ^ num.log2 ≤ num := by exact_mod_cast Nat.log2_self_le hnum
  have hnumhigh : (num : ℚ) < 2 ^ (num.log2 + 1) := by exact_mod_cast Nat.lt_log2_self
  have hdenlow : (2 : ℚ) ^ den.log2 ≤ den := by exact_mod_cast Nat.log2_self_le hden.ne'
  have hdenhigh : (den : ℚ) < 2 ^ (den.log2 + 1) := by exact_mod_cast Nat.lt_log2_self
  have hpower : (2 : ℚ) ^ ((num.log2 : Int) - den.log2 - 53) = 2 ^ num.log2 / 2 ^ den.log2 / 2 ^ 53 := by
    rw [zpow_sub₀ (by norm_num), zpow_sub₀ (by norm_num), zpow_natCast, zpow_natCast]
    norm_num
  have hpos : (0 : ℚ) < 2 ^ den.log2 := by positivity
  rw [pow_succ] at hnumhigh hdenhigh
  rw [hpower, div_lt_iff₀ hdenq, le_div_iff₀ hdenq]
  constructor
  · calc 2 ^ 52 * (2 ^ num.log2 / 2 ^ den.log2 / 2 ^ 53) * (den : ℚ)
        = 2 ^ num.log2 * (den / (2 ^ den.log2 * 2)) := by field_simp
      _ ≤ 2 ^ num.log2 * 1 := by
          refine mul_le_mul_of_nonneg_left ?_ (by positivity)
          rw [div_le_one (by positivity)]
          exact hdenhigh.le
      _ ≤ num := by rw [mul_one]; exact hnumlow
  · calc (num : ℚ) < 2 ^ num.log2 * 2 * 1 := by rw [mul_one]; exact hnumhigh
      _ ≤ 2 ^ num.log2 * 2 * (den / 2 ^ den.log2) := by
          refine mul_le_mul_of_nonneg_left ?_ (by positivity)
          rw [one_le_div hpos]
          exact hdenlow
      _ = 2 * (2 ^ 53 * (2 ^ num.log2 / 2 ^ den.log2 / 2 ^ 53)) * den := by field_simp

theorem isExponent_exponentOf {num den : Nat} (hnum : num ≠ 0) (hden : 0 < den) :
    IsExponent ((num : ℚ) / den) (exponentOf num den) := by
  obtain ⟨hlow, hhigh⟩ := guess_bounds hnum hden
  rw [exponentOf]
  dsimp only
  generalize (num.log2 : Int) - den.log2 - 53 = guess at *
  obtain ⟨hd, hscaled⟩ := scaled_spec num hden guess
  generalize scaled num den guess = nd at *
  obtain ⟨n, d⟩ := nd
  dsimp only at *
  have hfits : n / d < Nat.pow 2 53 ↔ (num : ℚ) / den < 2 ^ 53 * 2 ^ guess := by
    rw [Nat.div_lt_iff_lt_mul hd, ← div_lt_iff₀ (two_zpow_pos guess), ← hscaled,
      div_lt_iff₀ (Nat.cast_pos.mpr hd)]
    exact_mod_cast Iff.rfl
  have hnext : ∃ g, (if n / d < Nat.pow 2 53 then guess else guess + 1) = g ∧
      2 ^ 52 * (2 : ℚ) ^ g ≤ num / den ∧ (num : ℚ) / den < 2 ^ 53 * 2 ^ g := by
    refine ⟨_, rfl, ?_⟩
    split
    · rename_i hlt
      exact ⟨hlow, hfits.mp hlt⟩
    · rename_i hge
      have hge' := not_lt.mp (mt hfits.mpr hge)
      rw [two_zpow_succ]
      constructor <;> linarith
  obtain ⟨g, hg, hnormal, hlt⟩ := hnext
  rw [hg]
  refine ⟨le_max_left _ _, hlt.trans_le ?_, ?_⟩
  · exact mul_le_mul_of_nonneg_left (two_zpow_le (le_max_right _ _)) (by norm_num)
  · rcases le_total g (-1074) with h | h
    · exact Or.inl (max_eq_left h)
    · exact Or.inr (by rwa [max_eq_right h])

/-! ## 4. Rounding -/

/-- The outcome of rounding to `r`: a finite number, unless `r` is beyond the largest one. -/
def Stands (negative : Bool) (r : ℚ) (x : Binary64) : Prop :=
  2 ^ (1024 : Int) ≤ r ∧ x = .infinite negative ∨
    r < 2 ^ (1024 : Int) ∧ ∃ m e, Valid m e ∧ magnitude m e = r ∧ x = .finite negative m e

theorem two_pow_mul (n : Nat) (e : Int) : (2 : ℚ) ^ n * 2 ^ e = 2 ^ (n + e) := by
  rw [zpow_add₀ (by norm_num), zpow_natCast]

theorem Valid.magnitude_lt {m : Nat} {e : Int} (h : Valid m e) :
    magnitude m e < 2 ^ (1024 : Int) := by
  calc magnitude m e < 2 ^ 53 * 2 ^ e := h.isExponent.lt
    _ ≤ 2 ^ 53 * 2 ^ (971 : Int) :=
        mul_le_mul_of_nonneg_left (two_zpow_le h.exponent_le) (by norm_num)
    _ = 2 ^ (1024 : Int) := two_pow_mul 53 971

theorem stands_normal (negative : Bool) {m : Nat} {e : Int} (hm : m < 2 ^ 53) (he : -1074 ≤ e)
    (hnormal : e = -1074 ∨ 2 ^ 52 ≤ m) :
    Stands negative (magnitude m e) (if 971 < e then .infinite negative else .finite negative m e) := by
  split
  · rename_i hover
    refine Or.inl ⟨?_, rfl⟩
    have hmq : (2 : ℚ) ^ 52 ≤ m := by exact_mod_cast hnormal.resolve_left (by omega)
    calc (2 : ℚ) ^ (1024 : Int) = 2 ^ 52 * 2 ^ (972 : Int) := (two_pow_mul 52 972).symm
      _ ≤ m * 2 ^ e :=
          mul_le_mul hmq (two_zpow_le (by omega)) (two_zpow_pos _).le (Nat.cast_nonneg m)
  · rename_i hfits
    have hvalid : Valid m e := ⟨hm, he, by omega, hnormal⟩
    exact Or.inr ⟨hvalid.magnitude_lt, m, e, hvalid, rfl, rfl⟩

/-- A mantissa that is rounded up to `2 ^ 53` has the next exponent. -/
theorem magnitude_carry (e : Int) : magnitude (2 ^ 53) e = magnitude (2 ^ 52) (e + 1) := by
  rw [magnitude, magnitude, two_zpow_succ]
  push_cast
  ring

theorem mantissa_bounds {q : ℚ} {e : Int} {m : Nat} (he : IsExponent q e)
    (hclose : |(m : ℚ) - q / 2 ^ e| ≤ 1 / 2) : m ≤ 2 ^ 53 ∧ (e = -1074 ∨ 2 ^ 52 ≤ m) := by
  obtain ⟨hlow, hhigh⟩ := abs_le.mp hclose
  constructor
  · have hlt : q / 2 ^ e < 2 ^ 53 := (div_lt_iff₀ (two_zpow_pos e)).mpr he.lt
    have hm : (m : ℚ) < (2 ^ 53 + 1 : Nat) := by
      push_cast
      linarith
    exact Nat.lt_succ_iff.mp (Nat.cast_lt.mp hm)
  · refine he.normal.imp id fun hle => ?_
    have hge : 2 ^ 52 ≤ q / 2 ^ e := (le_div_iff₀ (two_zpow_pos e)).mpr hle
    have hm : ((2 ^ 52 : Nat) : ℚ) < (m + 1 : Nat) := by
      push_cast
      linarith
    exact Nat.lt_succ_iff.mp (Nat.cast_lt.mp hm)

theorem abs_magnitude_sub_le {q : ℚ} {e : Int} {m : Nat} (h : |(m : ℚ) - q / 2 ^ e| ≤ 1 / 2) :
    |magnitude m e - q| ≤ 2 ^ e / 2 := by
  have hpos := two_zpow_pos e
  calc |magnitude m e - q| = |(m - q / 2 ^ e) * 2 ^ e| := by
        rw [magnitude, sub_mul, div_mul_cancel₀ _ hpos.ne']
    _ = |m - q / 2 ^ e| * 2 ^ e := by rw [abs_mul, abs_of_pos hpos]
    _ ≤ 1 / 2 * 2 ^ e := mul_le_mul_of_nonneg_right h hpos.le
    _ = 2 ^ e / 2 := by ring

/-- A ratio is rounded to a multiple of the spacing at its exponent, by half of it at most. -/
theorem exists_stands_ofRatio (negative : Bool) (num : Nat) {den : Nat} (hden : 0 < den) {e : Int}
    (he : IsExponent ((num : ℚ) / den) e) :
    ∃ m : Nat, |magnitude m e - num / den| ≤ 2 ^ e / 2 ∧
      (∀ k : Nat, (num : ℚ) / den = magnitude k e → m = k) ∧
      Stands negative (magnitude m e) (ofRatio negative num den) := by
  by_cases hnum : num = 0
  · subst hnum
    obtain rfl : e = -1074 := he.unique (by rw [Nat.cast_zero, zero_div]; exact isExponent_zero)
    refine ⟨0, abs_magnitude_sub_le (by norm_num), fun k hk => ?_, ?_⟩
    · rw [Nat.cast_zero, zero_div, magnitude, eq_comm, mul_eq_zero] at hk
      exact (Nat.cast_eq_zero.mp (hk.resolve_right (two_zpow_pos _).ne')).symm
    · rw [ofRatio, if_pos rfl]
      exact stands_normal negative (by norm_num) le_rfl (Or.inl rfl)
  · obtain rfl := he.unique (isExponent_exponentOf hnum hden)
    obtain ⟨hd, hscaled⟩ := scaled_spec num hden (exponentOf num den)
    rw [ofRatio, if_neg hnum]
    dsimp only
    generalize scaled num den (exponentOf num den) = nd at *
    generalize exponentOf num den = e at *
    obtain ⟨n, d⟩ := nd
    dsimp only at *
    have hclose := abs_roundDiv_sub_le n hd
    rw [hscaled] at hclose
    have hexact : ∀ k : Nat, (num : ℚ) / den = magnitude k e → roundDiv n d = k := by
      intro k hk
      have hkd : (n : ℚ) = (k * d : Nat) := by
        rw [hk, magnitude, mul_div_cancel_right₀ _ (two_zpow_pos e).ne',
          div_eq_iff (Nat.cast_ne_zero.mpr hd.ne')] at hscaled
        rw [hscaled, Nat.cast_mul]
      rw [Nat.cast_inj.mp hkd, roundDiv_mul hd]
    refine ⟨roundDiv n d, abs_magnitude_sub_le hclose, hexact, ?_⟩
    obtain ⟨hle, hnormal⟩ := mantissa_bounds he hclose
    by_cases hcarry : roundDiv n d = Nat.pow 2 53
    · rw [if_pos hcarry]
      have hvalue : magnitude (roundDiv n d) e = magnitude (2 ^ 52) (e + 1) :=
        (congrArg (magnitude · e) hcarry).trans (magnitude_carry e)
      rw [hvalue]
      exact stands_normal negative (by norm_num) (by have := he.le_exponent; omega) (Or.inr le_rfl)
    · rw [if_neg hcarry]
      exact stands_normal negative (lt_of_le_of_ne hle hcarry) he.le_exponent hnormal

/-- A number that has an integer for its mantissa is not rounded. -/
theorem ofRatio_eq (negative : Bool) {num den m : Nat} {e : Int} (hden : 0 < den) (h : Valid m e)
    (hq : (num : ℚ) / den = magnitude m e) : ofRatio negative num den = .finite negative m e := by
  obtain ⟨m', -, hexact, hm'⟩ := exists_stands_ofRatio negative num hden (hq ▸ h.isExponent)
  rw [hexact m hq] at hm'
  obtain ⟨hover, -⟩ | ⟨-, m', e', h', hvalue, hx⟩ := hm'
  · exact absurd h.magnitude_lt (not_lt.mpr hover)
  · obtain rfl : e' = e := h'.isExponent.unique (hvalue ▸ h.isExponent)
    rw [magnitude, magnitude, mul_left_inj' (two_zpow_pos e').ne', Nat.cast_inj] at hvalue
    rw [hx, hvalue]

/-! ## 5. Order -/

theorem less_or_infinite {r r' : ℚ} {x x' : Binary64} (h : Stands false r x) (h' : Stands false r' x')
    (hlt : r < r') : Less x x' ∨ x = .infinite false ∧ x' = .infinite false := by
  obtain ⟨hr, rfl⟩ | ⟨hr, m, e, -, rfl, rfl⟩ := h
  · obtain ⟨-, rfl⟩ | ⟨hr', -⟩ := h'
    · exact Or.inr ⟨rfl, rfl⟩
    · linarith
  · refine Or.inl ?_
    obtain ⟨-, rfl⟩ | ⟨-, m', e', -, rfl, rfl⟩ := h'
    · exact .finite_infinite
    · exact .finite hlt

/-- Of two numbers that differ by more than the spacing of the larger one, the larger one stays
larger unless both are beyond the largest finite number. -/
theorem ofRatio_less {num den num' den' : Nat} (hden : 0 < den) (hden' : 0 < den') {e e' : Int}
    (he : IsExponent ((num : ℚ) / den) e) (he' : IsExponent ((num' : ℚ) / den') e')
    (hgap : (num : ℚ) / den + 2 ^ e' < num' / den') :
    Less (ofRatio false num den) (ofRatio false num' den') ∨
      ofRatio false num den = .infinite false ∧ ofRatio false num' den' = .infinite false := by
  obtain ⟨m, hclose, -, hm⟩ := exists_stands_ofRatio false num hden he
  obtain ⟨m', hclose', -, hm'⟩ := exists_stands_ofRatio false num' hden' he'
  refine less_or_infinite hm hm' ?_
  have hspacing : (2 : ℚ) ^ e ≤ 2 ^ e' :=
    two_zpow_le (he.mono he' (by linarith [two_zpow_pos e']))
  linarith [(abs_le.mp hclose).2, (abs_le.mp hclose').1]

/-! ## 6. Products -/

theorem exists_isExponent (num : Nat) {den : Nat} (hden : 0 < den) :
    ∃ e, IsExponent ((num : ℚ) / den) e := by
  by_cases hnum : num = 0
  · refine ⟨-1074, ?_⟩
    rw [hnum, Nat.cast_zero, zero_div]
    exact isExponent_zero
  · exact ⟨_, isExponent_exponentOf hnum hden⟩

theorem times_finite (p : Nat) (negative : Bool) (m : Nat) (e : Int) :
    times p (.finite negative m e) =
      ofRatio negative (ratio (p * m) e).1 (ratio (p * m) e).2 :=
  rfl

theorem times_zero (negative : Bool) (m : Nat) (e : Int) :
    times 0 (.finite negative m e) = .finite negative 0 (-1074) := by
  rw [times_finite, Nat.zero_mul, ratio]
  split <;> simp [ofRatio]

/-- Multiples of zero are zero, with its sign. -/
theorem times_zero_mantissa (p : Nat) (negative : Bool) (e : Int) :
    times p (.finite negative 0 e) = .finite negative 0 (-1074) := by
  rw [times_finite, ratio]
  split <;> simp [ofRatio]

theorem magnitude_mul (p m : Nat) (e : Int) : magnitude (p * m) e = p * magnitude m e := by
  rw [magnitude, magnitude, Nat.cast_mul, mul_assoc]

/-- With points that are counted exactly, three points more make a larger product. -/
theorem times_less {p q m : Nat} {e : Int} (hm : 0 < m) (he : -1074 ≤ e) (hpq : p + 2 < q)
    (hq : q ≤ 2 ^ 53) :
    Less (times p (.finite false m e)) (times q (.finite false m e)) ∨
      times p (.finite false m e) = .infinite false ∧ times q (.finite false m e) = .infinite false := by
  obtain ⟨hd, hp⟩ := ratio_spec (p * m) e
  obtain ⟨hd', hp'⟩ := ratio_spec (q * m) e
  obtain ⟨x, hx⟩ := exists_isExponent (ratio (p * m) e).1 hd
  obtain ⟨y, hy⟩ := exists_isExponent (ratio (q * m) e).1 hd'
  rw [times_finite, times_finite]
  refine ofRatio_less hd hd' hx hy ?_
  rw [hp', magnitude_mul] at hy ⊢
  rw [hp, magnitude_mul]
  have hunit : (2 : ℚ) ^ e ≤ magnitude m e :=
    le_mul_of_one_le_left (two_zpow_pos e).le (Nat.one_le_cast.mpr hm)
  have hpos : 0 < magnitude m e := (two_zpow_pos e).trans_le hunit
  have hqq : (q : ℚ) ≤ 2 ^ 53 := by exact_mod_cast hq
  have hpqq : (p : ℚ) + 2 < q := by exact_mod_cast hpq
  -- The spacing at a product is at most two weights, with a factor that is counted exactly.
  have hspacing : (2 : ℚ) ^ y ≤ 2 * magnitude m e := by
    rcases hy.normal with rfl | hnormal
    · linarith [two_zpow_le he]
    · linarith [mul_le_mul_of_nonneg_right hqq hpos.le]
  calc p * magnitude m e + 2 ^ y ≤ (p + 2) * magnitude m e := by linarith
    _ < q * magnitude m e := mul_lt_mul_of_pos_right hpqq hpos

/-! ## 7. Sums -/

theorem ofScaled_eq (negative : Bool) {k m : Nat} {least e : Int} (h : Valid m e)
    (hk : magnitude k least = magnitude m e) : ofScaled negative k least = .finite negative m e := by
  obtain ⟨hd, hq⟩ := ratio_spec k least
  exact ofRatio_eq negative hd h (hq.trans hk)

/-- A mantissa can be given a smaller exponent. -/
theorem magnitude_shift (m : Nat) {least e : Int} (h : least ≤ e) :
    magnitude (m * Nat.pow 2 (e - least).toNat) least = magnitude m e := by
  rw [magnitude, magnitude, Nat.cast_mul, cast_pow, two_pow_toNat (by omega), mul_assoc,
    ← zpow_add₀ (by norm_num), sub_add_cancel]

/-- A multiple of a power of two is a number of the format if it is small enough. -/
theorem exists_valid {k : Nat} {e : Int} (hk : k < 2 ^ 53) (he : -1074 ≤ e) (he' : e ≤ 971) :
    ∃ m x, Valid m x ∧ magnitude m x = magnitude k e := by
  obtain ⟨hd, hq⟩ := ratio_spec k e
  obtain ⟨x, hx⟩ := exists_isExponent (ratio k e).1 hd
  rw [hq] at hx
  have hkq : (k : ℚ) < 2 ^ 53 := by exact_mod_cast hk
  have hle : x ≤ e := by
    by_contra hlt
    have hnormal := hx.normal.resolve_left (by omega)
    have hstep : (2 : ℚ) ^ (e + 1) ≤ 2 ^ x := two_zpow_le (by omega)
    rw [two_zpow_succ] at hstep
    have hsmall : magnitude k e < 2 ^ 53 * 2 ^ e := mul_lt_mul_of_pos_right hkq (two_zpow_pos e)
    linarith
  have hshift := magnitude_shift k hle
  rw [← hshift] at hx ⊢
  refine ⟨_, x, ⟨?_, hx.le_exponent, hle.trans he', ?_⟩, rfl⟩
  · exact_mod_cast lt_of_mul_lt_mul_right hx.lt (two_zpow_pos x).le
  · exact hx.normal.imp id fun h => by exact_mod_cast le_of_mul_le_mul_right h (two_zpow_pos x)

theorem rational_eq_signed (negative : Bool) (m : Nat) {least e : Int} (h : least ≤ e) :
    rational negative m e =
      (signed negative (m * Nat.pow 2 (e - least).toNat) : ℚ) * 2 ^ least := by
  have hshift := magnitude_shift m h
  rw [magnitude] at hshift
  cases negative
  · simp only [rational, signed, Bool.false_eq_true, if_false, Int.cast_natCast, hshift]
  · simp only [rational, signed, if_true, Int.cast_neg, Int.cast_natCast, neg_mul, hshift]

/-- The sum of two numbers without a sign has none, and is rounded. -/
theorem add_finite (m m' : Nat) (e e' : Int) :
    add (.finite false m e) (.finite false m' e') =
      ofScaled false (m * Nat.pow 2 (e - min e e').toNat + m' * Nat.pow 2 (e' - min e e').toNat)
        (min e e') := by
  have hsign : ∀ k : Nat, (if (k : Int) = 0 then false else decide ((k : Int) < 0)) = false := by
    intro k
    split
    · rfl
    · exact decide_eq_false (by omega)
  simp only [add, signed, Bool.false_eq_true, if_false, Bool.and_self, ← Int.natCast_add,
    Int.natAbs_natCast, hsign]

/-- A number that is not negative, without a sign. -/
def Plus (x : Binary64) : Prop :=
  ∃ r, Stands false r x

theorem plus_ofScaled (k : Nat) (e : Int) : Plus (ofScaled false k e) := by
  obtain ⟨hd, -⟩ := ratio_spec k e
  obtain ⟨x, hx⟩ := exists_isExponent (ratio k e).1 hd
  obtain ⟨m, -, -, hm⟩ := exists_stands_ofRatio false (ratio k e).1 hd hx
  exact ⟨_, hm⟩

theorem plus_zero : Plus zero :=
  ⟨_, Or.inr ⟨valid_zero.magnitude_lt, 0, -1074, valid_zero, rfl, rfl⟩⟩

theorem plus_times (p m : Nat) (e : Int) : Plus (times p (.finite false m e)) :=
  plus_ofScaled (p * m) e

theorem Plus.add {x y : Binary64} (hx : Plus x) (hy : Plus y) : Plus (x.add y) := by
  obtain ⟨r, ⟨hr, rfl⟩ | ⟨-, m, e, -, -, rfl⟩⟩ := hx
  · obtain ⟨r', ⟨-, rfl⟩ | ⟨-, m', e', -, -, rfl⟩⟩ := hy
    · exact ⟨r, Or.inl ⟨hr, rfl⟩⟩
    · exact ⟨r, Or.inl ⟨hr, rfl⟩⟩
  · obtain ⟨r', ⟨hr', rfl⟩ | ⟨-, m', e', -, -, rfl⟩⟩ := hy
    · exact ⟨r', Or.inl ⟨hr', rfl⟩⟩
    · rw [add_finite]
      exact plus_ofScaled _ _

theorem Plus.zero_add {x : Binary64} (hx : Plus x) : zero.add x = x := by
  obtain ⟨r, ⟨-, rfl⟩ | ⟨-, m, e, h, -, rfl⟩⟩ := hx
  · rfl
  · have hleast : min (-1074) e = -1074 := min_eq_left h.le_exponent
    rw [zero, add_finite, hleast, Nat.zero_mul, Nat.zero_add]
    exact ofScaled_eq false h (magnitude_shift m h.le_exponent)

/-- Behind a number without a sign a zero may have one. -/
theorem Plus.add_minusZero {x : Binary64} (hx : Plus x) :
    x.add minusZero = x.add zero := by
  obtain ⟨r, ⟨-, rfl⟩ | ⟨-, m, e, -, -, rfl⟩⟩ := hx
  · rfl
  · simp only [zero, minusZero, Binary64.add, signed, Nat.zero_mul, Bool.false_and, Nat.cast_zero, neg_zero,
      ite_self]

end Binary64

end Recall
