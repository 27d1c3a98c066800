/-
Recall.Proofs.Search.Eighths — scores in eighths are the scores of the binary64 format.

The weights of records are multiples of one eighth, and so are their scores. A score in eighths is an
integer, and nothing of it is rounded. Reckoned in the binary64 format the same score is not rounded
either, as long as the eighths of all fields together are fewer than `2 ^ 53`: every partial sum is
then a number of the format (`Denotes.total`, `ofFields_denotes`), and scores compare as their eighths
do (`Denotes.less_iff`).
-/
import Mathlib.Algebra.Order.Ring.Abs
import Recall.Proofs.Search.Tier

namespace Recall

namespace Score

open Binary64 (Valid magnitude rational)

/-- The number is so many eighths, exactly. -/
def Denotes (x : Binary64) (w : Score) : Prop :=
  ∃ s m e, x = .finite s m e ∧ Valid m e ∧ rational s m e = (w : ℚ) / 8

theorem abs_rational (s : Bool) (m : Nat) (e : Int) : |rational s m e| = magnitude m e := by
  have hnonneg : 0 ≤ magnitude m e := mul_nonneg (Nat.cast_nonneg m) (Binary64.two_zpow_pos e).le
  cases s
  · exact abs_of_nonneg hnonneg
  · exact (abs_neg _).trans (abs_of_nonneg hnonneg)

theorem magnitude_of_rational {s : Bool} {m : Nat} {e w : Int}
    (h : rational s m e = (w : ℚ) / 8) : magnitude m e = |(w : ℚ)| / 8 := by
  rw [← abs_rational s, h, abs_div]
  norm_num

/-- A number that is not zero has the sign of its eighths. -/
theorem sign_of_rational {s : Bool} {m : Nat} {e w : Int} (h : rational s m e = (w : ℚ) / 8)
    (hw : w ≠ 0) : s = decide (w < 0) := by
  have hmagnitude := magnitude_of_rational h
  have hpos : 0 < |(w : ℚ)| := abs_pos.mpr (Int.cast_ne_zero.mpr hw)
  cases s
  · have hge : (0 : ℚ) < w := by
      rw [rational, if_neg Bool.false_ne_true] at h
      linarith
    rw [eq_comm, decide_eq_false_iff_not, not_lt]
    exact_mod_cast hge.le
  · have hlt : (w : ℚ) < 0 := by
      rw [rational, if_pos rfl] at h
      linarith
    rw [eq_comm, decide_eq_true_iff]
    exact_mod_cast hlt

theorem magnitude_eighths (w : Int) : magnitude w.natAbs (-3) = |(w : ℚ)| / 8 := by
  rw [magnitude, Nat.cast_natAbs, Int.cast_abs, zpow_neg, div_eq_mul_inv]
  norm_num

theorem denotes_ofScaled {s : Bool} {k : Nat} {e w : Int} (hw : w.natAbs < 2 ^ 53)
    (hvalue : magnitude k e = |(w : ℚ)| / 8) (hsign : w ≠ 0 → s = decide (w < 0)) :
    Denotes (Binary64.ofScaled s k e) w := by
  obtain ⟨m, x, hvalid, hm⟩ := Binary64.exists_valid (e := -3) hw (by decide) (by decide)
  rw [magnitude_eighths, ← hvalue] at hm
  refine ⟨s, m, x, Binary64.ofScaled_eq s hvalid hm.symm, hvalid, ?_⟩
  rw [rational, hm, hvalue]
  by_cases hzero : w = 0
  · simp [hzero]
  · rw [hsign hzero]
    by_cases hneg : w < 0
    · have habs : |(w : ℚ)| = -w := abs_of_neg (Int.cast_lt_zero.mpr hneg)
      simp only [hneg, decide_true, if_true, habs]
      ring
    · have habs : |(w : ℚ)| = w := abs_of_nonneg (Int.cast_nonneg (not_lt.mp hneg))
      simp only [hneg, decide_false, Bool.false_eq_true, if_false, habs]

/-- The number of the binary64 format that so many eighths are. -/
def binary64 (w : Score) : Binary64 :=
  .ofRatio (decide (w < 0)) w.natAbs 8

theorem denotes_binary64 {w : Score} (hw : w.natAbs < 2 ^ 53) : Denotes (binary64 w) w :=
  denotes_ofScaled (k := w.natAbs) (e := -3) hw (magnitude_eighths w) fun _ => rfl

/-- Four is `2 ^ 52 / 2 ^ 50`. -/
example : binary64 titleWeight = .finite false 4503599627370496 (-50) := by
  decide

/-- Points are counted exactly where there are few eighths. -/
theorem counted_mul {p : Nat} {w : Int} (h : ((p : Int) * w).natAbs < 2 ^ 53) :
    (Binary64.counted p : Int) * w = p * w := by
  by_cases hw : w = 0
  · rw [hw, Int.mul_zero, Int.mul_zero]
  · rw [Int.natAbs_mul, Int.natAbs_natCast] at h
    have hp : p ≤ p * w.natAbs := Nat.le_mul_of_pos_right p (Int.natAbs_pos.mpr hw)
    have hcount : p ≤ Binary64.countLimit := (hp.trans_lt h).le
    rw [counted_eq hcount]

theorem Denotes.times {x : Binary64} {w : Int} (h : Denotes x w) {p : Nat}
    (hw : ((p : Int) * w).natAbs < 2 ^ 53) : Denotes (x.times p) (p * w) := by
  obtain ⟨s, m, e, rfl, -, hvalue⟩ := h
  refine denotes_ofScaled hw ?_ fun hne => ?_
  · rw [Binary64.magnitude_mul, magnitude_of_rational hvalue, Int.cast_mul, abs_mul,
      Int.cast_natCast, Nat.abs_cast, mul_div_assoc]
  · obtain ⟨hp, hw⟩ := mul_ne_zero_iff.mp hne
    have hpos : 0 < (p : Int) := by omega
    rw [sign_of_rational hvalue hw, decide_eq_decide]
    exact ⟨mul_neg_of_pos_of_neg hpos, fun hneg => neg_of_mul_neg_right hneg hpos.le⟩

theorem Denotes.add {x y : Binary64} {v w : Int} (hx : Denotes x v) (hy : Denotes y w)
    (h : (v + w).natAbs < 2 ^ 53) : Denotes (x.add y) (v + w) := by
  obtain ⟨s, m, e, rfl, -, hv⟩ := hx
  obtain ⟨s', m', e', rfl, -, hw⟩ := hy
  rw [Binary64.rational_eq_signed s m (min_le_left e e')] at hv
  rw [Binary64.rational_eq_signed s' m' (min_le_right e e')] at hw
  rw [Binary64.add]
  generalize Binary64.signed s _ = a at *
  generalize Binary64.signed s' _ = b at *
  generalize min e e' = least at *
  have hpos := Binary64.two_zpow_pos least
  have hsum : ((a + b : Int) : ℚ) * 2 ^ least = ((v + w : Int) : ℚ) / 8 := by
    push_cast
    rw [add_mul, hv, hw, add_div]
  refine denotes_ofScaled h ?_ fun hne => ?_
  · rw [magnitude, Nat.cast_natAbs, Int.cast_abs, ← abs_of_pos hpos, ← abs_mul, hsum, abs_div]
    norm_num
  · have hneq : ((v + w : Int) : ℚ) ≠ 0 := Int.cast_ne_zero.mpr hne
    have hab : a + b ≠ 0 := by
      intro hzero
      rw [hzero, Int.cast_zero, zero_mul] at hsum
      exact hneq (by linarith)
    rw [if_neg hab, decide_eq_decide, ← Int.cast_lt_zero (R := ℚ), ← Int.cast_lt_zero (R := ℚ)]
    constructor
    · intro hneg
      linarith [mul_neg_of_neg_of_pos hneg hpos]
    · intro hneg
      by_contra hge
      linarith [mul_nonneg (not_lt.mp hge) hpos.le]

theorem denotes_zero : Denotes Binary64.zero 0 :=
  ⟨false, 0, -1074, rfl, Binary64.valid_zero, by norm_num [rational, magnitude]⟩

/-- The eighths of a partial sum are at most those of its start and of the scores together. -/
theorem Denotes.foldl {scores : List Binary64} {eighths : List Score}
    (h : List.Forall₂ Denotes scores eighths) : ∀ {x : Binary64} {v : Score}, Denotes x v →
      v.natAbs + (eighths.map Int.natAbs).sum < 2 ^ 53 →
      Denotes (scores.foldl Reckoning.add x) (eighths.foldl Reckoning.add v) := by
  induction h with
  | nil => exact fun hx _ => hx
  | @cons y w scores eighths hy hrest ih =>
    intro x v hx hsmall
    rw [List.map_cons, List.sum_cons] at hsmall
    have hle := Int.natAbs_add_le v w
    have hnext : (v + w).natAbs + (eighths.map Int.natAbs).sum < 2 ^ 53 := by omega
    exact ih (hx.add hy (by omega)) hnext

theorem Denotes.total {scores : List Binary64} {eighths : List Score}
    (h : List.Forall₂ Denotes scores eighths) (hsmall : (eighths.map Int.natAbs).sum < 2 ^ 53) :
    Denotes (total scores) (total eighths) :=
  Denotes.foldl h denotes_zero ((Nat.zero_add _).trans_lt hsmall)

/-- The same texts, with the same weights. -/
def SameFields (rounded : List (Field Binary64)) (fields : List Field) : Prop :=
  List.Forall₂ (fun x f => x.text = f.text ∧ Denotes x.weight f.weight) rounded fields

/-- Weights of fewer than `2 ^ 53` eighths are numbers of the format. -/
theorem sameFields_map {fields : List Field} (h : ∀ f ∈ fields, f.weight.natAbs < 2 ^ 53) :
    SameFields (fields.map fun f => ⟨f.text, binary64 f.weight⟩) fields := by
  rw [SameFields, List.forall₂_map_left_iff, List.forall₂_same]
  exact fun f hf => ⟨rfl, denotes_binary64 (h f hf)⟩

theorem ofField_denotes {n : Needle} {lowered : String} {x : Binary64} {w : Score}
    (h : Denotes x w) (hsmall : (ofField n lowered w).natAbs < 2 ^ 53) :
    Denotes (ofField n lowered x) (ofField n lowered w) := by
  rw [ofField_eq] at hsmall ⊢
  rw [ofField]
  split
  · exact denotes_zero
  · rename_i hne
    rw [if_neg hne] at hsmall
    have hpoints := counted_mul hsmall
    rw [← hpoints] at hsmall ⊢
    exact h.times hsmall

theorem SameFields.scores {n : Needle} {rounded : List (Field Binary64)} {fields : List Field}
    (h : SameFields rounded fields)
    (hsmall : (fields.map fun f => (ofField n (Text.lower f.text) f.weight).natAbs).sum < 2 ^ 53) :
    List.Forall₂ Denotes (rounded.map fun f => ofField n (Text.lower f.text) f.weight)
      (fields.map fun f => ofField n (Text.lower f.text) f.weight) := by
  induction h with
  | nil => exact .nil
  | cons hf hrest ih =>
    rw [List.map_cons, List.sum_cons] at hsmall
    rw [List.map_cons, List.map_cons, hf.1]
    exact .cons (ofField_denotes hf.2 (by omega)) (ih (by omega))

/-- **Scores in eighths.** Fields whose weights are eighths score in the binary64 format what they
score in eighths, exactly, if their scores are fewer than `2 ^ 53` eighths together. -/
theorem ofFields_denotes {n : Needle} {rounded : List (Field Binary64)} {fields : List Field}
    (h : SameFields rounded fields)
    (hsmall : (fields.map fun f => (ofField n (Text.lower f.text) f.weight).natAbs).sum < 2 ^ 53) :
    Denotes (ofFields n rounded) (ofFields n fields) := by
  rw [ofFields, ofFields]
  split
  · exact denotes_zero
  · refine Denotes.total (h.scores hsmall) ?_
    rwa [List.map_map]

/-- Scores in the binary64 format compare as their eighths do. -/
theorem Denotes.less_iff {x y : Binary64} {v w : Score} (hx : Denotes x v) (hy : Denotes y w) :
    x.Less y ↔ v < w := by
  obtain ⟨s, m, e, rfl, -, hv⟩ := hx
  obtain ⟨s', m', e', rfl, -, hw⟩ := hy
  have hvalues : rational s m e < rational s' m' e' ↔ v < w := by
    rw [hv, hw, div_lt_div_iff_of_pos_right (by norm_num), Int.cast_lt]
  rw [← hvalues]
  exact ⟨fun h => by cases h; assumption, .finite⟩

end Score

end Recall
