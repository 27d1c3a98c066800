/-
Recall.Proofs.Text.Letter — the case of ASCII letters.

Two texts have the *same letters* when they differ in the case of ASCII letters and in nothing else.
What a text comes to without regard to case is its form with the ASCII letters in lower case
(`lowerLetters`), so a function does not see their case if it gives the same for a text and for that
form. Lowering is such a function (`lower_lowerLetters`): a capital and its small letter have the
same lower case, and next to a capital sigma they count alike, for both are cased.

Other functions give back a part of the text they are given. These take the form of a text to the
form of the part: stripping, cutting and joining do (`strip_map`, `fields_map`, `join_map`), because
they ask of a character nothing that depends on its case.
-/
import Mathlib.Data.List.Basic
import Recall.Proofs.Text.Case

namespace Recall

namespace Chars

/-! ## 1. One letter -/

theorem toLower_of_not_capital {c : Char} (h : c.toNat < 65 ∨ 90 < c.toNat) : c.toLower = c := by
  unfold Char.toLower
  split
  · rename_i hcap
    have hlo : 65 ≤ c.toNat := hcap.1
    have hhi : c.toNat ≤ 90 := hcap.2
    omega
  · rfl

/-- What is the same for each capital and its small letter does not see the case of letters. -/
theorem apply_toLower {α : Type} (f : Char → α)
    (h : ∀ n : Fin 26, f (Char.ofNat (65 + n)).toLower = f (Char.ofNat (65 + n))) (c : Char) :
    f c.toLower = f c := by
  by_cases hcap : c.toNat < 65 ∨ 90 < c.toNat
  · rw [toLower_of_not_capital hcap]
  · obtain ⟨n, rfl⟩ := exists_capital hcap
    exact h n

@[simp] theorem isBlank_toLower (c : Char) : isBlank c.toLower = isBlank c :=
  apply_toLower isBlank (by decide +kernel) c

theorem isCaseIgnorable_toLower (c : Char) : isCaseIgnorable c.toLower = isCaseIgnorable c := by
  -- No letter is in the long list of ranges, which is gone through once for all of them.
  have hclear : clearOf ignorableRanges 65 90 = true ∧ clearOf ignorableRanges 97 122 = true := by
    decide +kernel
  have hcode : ∀ n : Fin 26, (Char.ofNat (65 + n)).toNat = 65 + n ∧
      (Char.ofNat (65 + n)).toLower.toNat = 97 + n := by decide +kernel
  refine apply_toLower isCaseIgnorable ?_ c
  intro n
  obtain ⟨hcap, hsmall⟩ := hcode n
  rw [isCaseIgnorable, isCaseIgnorable, hcap, hsmall,
    inRanges_eq_false hclear.2 (by omega) (by omega),
    inRanges_eq_false hclear.1 (by omega) (by omega)]

theorem isCased_toLower (c : Char) : isCased c.toLower = isCased c :=
  apply_toLower isCased (by decide +kernel) c

theorem lowerOne_toLower (c : Char) : lowerOne c.toLower = lowerOne c :=
  apply_toLower lowerOne (by decide +kernel) c

/-- Nothing becomes what is no ASCII letter. -/
theorem toLower_eq_iff {c d : Char} (hd : d.isAlpha = false) : c.toLower = d ↔ c = d := by
  by_cases hcap : c.toNat < 65 ∨ 90 < c.toNat
  · rw [toLower_of_not_capital hcap]
  · obtain ⟨n, rfl⟩ := exists_capital hcap
    have halpha : ∀ n : Fin 26, (Char.ofNat (65 + n)).isAlpha = true ∧
        (Char.ofNat (65 + n)).toLower.isAlpha = true := by decide +kernel
    constructor
    · rintro rfl
      rw [(halpha n).2] at hd
      cases hd
    · rintro rfl
      rw [(halpha n).1] at hd
      cases hd

theorem beq_toLower {c d : Char} (hd : d.isAlpha = false) : (c.toLower == d) = (c == d) := by
  rw [Bool.eq_iff_iff, beq_iff_eq, beq_iff_eq, toLower_eq_iff hd]

/-! ## 2. Lowering does not see the case of letters -/

theorem startsCased_map_toLower (cs : List Char) :
    startsCased (cs.map Char.toLower) = startsCased cs := by
  induction cs with
  | nil => rfl
  | cons c r ih => simp [startsCased, isCaseIgnorable_toLower, isCased_toLower, ih]

theorem lowerChar_toLower (before : Bool) (c : Char) (after : List Char) :
    lowerChar before c.toLower (after.map Char.toLower) = lowerChar before c after := by
  have hsigma : c.toLower = 'Σ' ↔ c = 'Σ' := toLower_eq_iff (by decide)
  have hdotted : c.toLower = 'İ' ↔ c = 'İ' := toLower_eq_iff (by decide)
  simp only [lowerChar, hsigma, hdotted, startsCased_map_toLower, lowerOne_toLower]

theorem lowerFrom_map_toLower (cs : List Char) (before : Bool) :
    lowerFrom before (cs.map Char.toLower) = lowerFrom before cs := by
  induction cs generalizing before with
  | nil => rfl
  | cons c r ih =>
    have hends : endsCased before c.toLower = endsCased before c := by
      rw [endsCased, endsCased, isCaseIgnorable_toLower, isCased_toLower]
    rw [List.map_cons, lowerFrom, lowerFrom, lowerChar_toLower, hends, ih]

theorem lower_map_toLower (cs : List Char) : lower (cs.map Char.toLower) = lower cs :=
  lowerFrom_map_toLower cs false

/-! ## 3. Parts of a text -/

theorem trim_map_toLower (cs : List Char) :
    trim (cs.map Char.toLower) = (trim cs).map Char.toLower :=
  strip_map isBlank_toLower cs

theorem words_map_toLower (cs : List Char) :
    words (cs.map Char.toLower) = (words cs).map (List.map Char.toLower) := by
  have hcomp : isBlank ∘ Char.toLower = isBlank := funext isBlank_toLower
  rw [words, fields_map, hcomp, words]

end Chars

namespace Text

/-! ## 4. The same on strings -/

/-- A text with its ASCII letters in lower case. -/
def lowerLetters (s : String) : String :=
  String.ofList (s.toList.map Char.toLower)

/-- Two texts have the same characters, but for the case of ASCII letters. -/
def SameLetters (s t : String) : Prop :=
  s.toList.map Char.toLower = t.toList.map Char.toLower

instance (s t : String) : Decidable (SameLetters s t) :=
  inferInstanceAs (Decidable (_ = _))

@[simp] theorem toList_lowerLetters (s : String) :
    (lowerLetters s).toList = s.toList.map Char.toLower := by
  simp [lowerLetters]

theorem sameLetters_iff {s t : String} : SameLetters s t ↔ lowerLetters s = lowerLetters t := by
  rw [SameLetters, ← toList_lowerLetters, ← toList_lowerLetters, String.toList_inj]

theorem lower_lowerLetters (s : String) : lower (lowerLetters s) = lower s := by
  apply String.toList_injective
  simp [Chars.lower_map_toLower]

theorem trim_lowerLetters (s : String) : trim (lowerLetters s) = lowerLetters (trim s) := by
  apply String.toList_injective
  simp [Chars.trim_map_toLower]

theorem join_lowerLetters {sep : String} (h : lowerLetters sep = sep) (ps : List String) :
    join sep (ps.map lowerLetters) = lowerLetters (join sep ps) := by
  have hsep : sep.toList.map Char.toLower = sep.toList := by
    rw [← toList_lowerLetters, h]
  apply String.toList_injective
  simp [Chars.join_map, hsep, Function.comp_def]

end Text

end Recall
