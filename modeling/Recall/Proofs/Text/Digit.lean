/-
Recall.Proofs.Text.Digit — numbers written with a fixed width.

A number below `10 ^ w` that is padded to `w` digits has exactly `w` of them, all ASCII
(`length_padded`, `isAsciiDigit_of_mem_padded`), and they denote it (`ofDigits_padded`).
-/
import Mathlib.Algebra.Group.Nat.Defs
import Recall.Text.Digit

namespace Recall

namespace Chars

theorem isAsciiDigit_iff {c : Char} : isAsciiDigit c = true ↔ 48 ≤ c.toNat ∧ c.toNat ≤ 57 := by
  rw [isAsciiDigit, Bool.and_eq_true, decide_eq_true_eq, decide_eq_true_eq, Char.le_def, Char.le_def,
    UInt32.le_iff_toNat_le, UInt32.le_iff_toNat_le]
  rfl

/-- What holds of each of the ten digits holds of every digit. -/
theorem forall_isAsciiDigit {P : Char → Prop} (h : ∀ n : Fin 10, P (Char.ofNat (48 + n))) {c : Char}
    (hc : isAsciiDigit c = true) : P c := by
  have hrange := isAsciiDigit_iff.mp hc
  have hchar : Char.ofNat (48 + (c.toNat - 48)) = c := by
    rw [Nat.add_sub_cancel' hrange.1, Char.ofNat_toNat]
  have hten := h ⟨c.toNat - 48, by omega⟩
  rwa [hchar] at hten

theorem isAsciiDigit_of_mem_padded {w n : Nat} {c : Char} (h : c ∈ padded w n) :
    isAsciiDigit c = true := by
  rw [padded, List.mem_append] at h
  rcases h with h | h
  · rw [(List.mem_replicate.mp h).2]
    decide
  · have hdigit := Nat.isDigit_of_mem_toDigits (by decide) (by decide) h
    rw [Char.isDigit, Bool.and_eq_true, decide_eq_true_eq, decide_eq_true_eq] at hdigit
    exact isAsciiDigit_iff.mpr ⟨hdigit.1, hdigit.2⟩

/-- A number is written with digits. -/
theorem forall_mem_padded {P : Char → Prop} (hdigit : ∀ c, isAsciiDigit c = true → P c) (w n : Nat) :
    ∀ c ∈ padded w n, P c :=
  fun c hc => hdigit c (isAsciiDigit_of_mem_padded hc)

theorem ne_of_isAsciiDigit {c d : Char} (hc : isAsciiDigit c = true) (hd : isAsciiDigit d = false) :
    c ≠ d := by
  rintro rfl
  exact absurd (hc.symm.trans hd) (by decide)

theorem isBlank_of_isAsciiDigit {c : Char} (h : isAsciiDigit c = true) : isBlank c = false := by
  have := isAsciiDigit_iff.mp h
  simp only [isBlank, Bool.or_eq_false_iff, Bool.and_eq_false_iff, decide_eq_false_iff_not,
    beq_eq_false_iff_ne]
  omega

theorem length_padded {w n : Nat} (hw : 0 < w) (h : n < 10 ^ w) : (padded w n).length = w := by
  have hlen : (digits n).length ≤ w := (Nat.length_toDigits_le_iff (by decide) hw).mpr h
  rw [padded, List.length_append, List.length_replicate]
  omega

/-- There is a number with more digits than are read or written. -/
theorem maxDigits_lt_length_digits : maxDigits < (digits (10 ^ maxDigits)).length := by
  refine Nat.not_le.mp fun h => ?_
  exact absurd ((Nat.length_toDigits_le_iff (by decide) (by decide)).mp h) (Nat.lt_irrefl _)

/-- A padded number begins with a digit. -/
theorem exists_padded_eq_cons {w n : Nat} (hw : 0 < w) (h : n < 10 ^ w) :
    ∃ c cs, padded w n = c :: cs ∧ isAsciiDigit c = true := by
  have hne : padded w n ≠ [] := by
    rw [← List.length_pos_iff, length_padded hw h]
    exact hw
  obtain ⟨c, cs, heq⟩ := List.exists_cons_of_ne_nil hne
  exact ⟨c, cs, heq, isAsciiDigit_of_mem_padded (heq ▸ List.mem_cons_self)⟩

/-- The digits of a padded number denote it. -/
theorem ofDigits_padded (w n : Nat) :
    ofDigits ((padded w n).map fun c => c.toNat - '0'.toNat) = n := by
  have hread : ∀ cs : List Char, ofDigits (cs.map fun c => c.toNat - '0'.toNat) =
      Nat.ofDigitChars 10 cs 0 := fun cs => List.foldl_map
  rw [hread, padded, Nat.ofDigitChars_append, Nat.ofDigitChars_replicate_zero, Nat.mul_zero]
  exact Nat.ofDigitChars_ten_toDigits

end Chars

end Recall
