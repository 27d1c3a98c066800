/-
Recall.Proofs.Search.Score — when a score is positive.

A needle *touches* a text when the lowered text has the phrase or one of the words. This is what a
score counts: with positive weights, fields score something exactly when the needle touches one of
them (`ofLowered_pos_iff`). The three steps for the phrase and the points for the words all come
down to one text occurring in another.
-/
import Mathlib.Algebra.Order.Ring.Int
import Recall.Proofs.Query.Needle
import Recall.Search.Badge
import Recall.Search.Score

namespace Recall

namespace Needle

theorem ne_empty_of_touches {n : Needle} {t : String} (h : n.touches t = true) : t ≠ "" := by
  rw [touches, Bool.and_eq_true, bne_iff_ne] at h
  exact h.1

/-- A needle with a phrase touches a text that has, in lower case, the phrase or one of its words. -/
theorem touches_iff {n : Needle} {ws : List String} (h : n.Spelled ws) (hne : n.phrase ≠ "")
    (t : String) :
    n.touches t = true ↔ Text.occursIn n.phrase (Text.lower t) = true ∨
      ∃ w ∈ n.words, Text.occursIn w (Text.lower t) = true := by
  simp only [touches, Bool.and_eq_true, Bool.or_eq_true, bne_iff_ne, List.any_eq_true]
  constructor
  · rintro ⟨-, ⟨-, hphrase⟩ | hword⟩
    · exact .inl hphrase
    · exact .inr hword
  · rintro (hphrase | ⟨w, hw, hword⟩)
    · exact ⟨Text.ne_empty_of_occursIn_lower hne hphrase, .inl ⟨hne, hphrase⟩⟩
    · exact ⟨Text.ne_empty_of_occursIn_lower (h.ne_empty hw) hword, .inr ⟨w, hw, hword⟩⟩

end Needle

namespace Score

/-! ## 1. Points -/

theorem phrasePoints_pos_iff {phrase lowered : String} :
    0 < phrasePoints phrase lowered ↔ Text.occursIn phrase lowered = true := by
  rw [phrasePoints]
  split
  · rename_i heq
    have hself : Text.occursIn phrase lowered = true := by
      rw [Text.occursIn_iff, heq]
    simp [hself]
  · split
    · rename_i hprefix
      have hoccurs : Text.occursIn phrase lowered = true :=
        Text.occursIn_iff.mpr (List.isPrefixOf_iff_prefix.mp hprefix).isInfix
      simp [hoccurs]
    · split
      · rename_i hoccurs
        simp [hoccurs]
      · rename_i hno
        simp [hno]

theorem wordPoints_pos_iff {words : List String} {lowered : String} :
    0 < wordPoints words lowered ↔ ∃ w ∈ words, Text.occursIn w lowered = true := by
  rw [wordPoints, List.length_pos_iff_exists_mem]
  simp only [List.mem_filter]

theorem ofField_eq (n : Needle) (lowered : String) (weight : Score) :
    ofField n lowered weight = if lowered = "" then 0
      else ((phrasePoints n.phrase lowered + wordPoints n.words lowered : Nat) : Int) * weight :=
  rfl

theorem ofField_nonneg {n : Needle} {lowered : String} {weight : Score} (h : 0 < weight) :
    0 ≤ ofField n lowered weight := by
  rw [ofField_eq]
  split
  · exact Int.le_refl 0
  · exact Int.mul_nonneg (Int.natCast_nonneg _) (Int.le_of_lt h)

/-- A field that is not empty scores when it has the phrase or one of the words. -/
theorem ofField_pos_iff {n : Needle} {lowered : String} {weight : Score} (hne : lowered ≠ "")
    (hw : 0 < weight) :
    0 < ofField n lowered weight ↔ Text.occursIn n.phrase lowered = true ∨
      ∃ w ∈ n.words, Text.occursIn w lowered = true := by
  rw [ofField_eq, if_neg hne, ← phrasePoints_pos_iff, ← wordPoints_pos_iff,
    mul_pos_iff_of_pos_right hw]
  exact Int.natCast_pos.trans Nat.add_pos_iff_pos_or_pos

/-! ## 2. Sums -/

theorem total_eq_sum (scores : List Score) : total scores = scores.sum :=
  List.sum_eq_foldl.symm

theorem sum_map_pos_iff {g : Field → Int} : ∀ {fields : List Field}, (∀ f ∈ fields, 0 ≤ g f) →
    0 ≤ (fields.map g).sum ∧ (0 < (fields.map g).sum ↔ ∃ f ∈ fields, 0 < g f)
  | [], _ => by simp
  | f :: r, h => by
      obtain ⟨hnonneg, hpos⟩ := sum_map_pos_iff fun x hx => h x (List.mem_cons_of_mem f hx)
      have hf := h f List.mem_cons_self
      simp only [List.map_cons, List.sum_cons, List.mem_cons, exists_eq_or_imp, ← hpos]
      exact ⟨Int.add_nonneg hf hnonneg, by omega⟩

/-- Fields with positive weights score when the needle touches one of them. -/
theorem ofLowered_pos_iff {n : Needle} (hne : n.phrase ≠ "") {fields : List Field}
    (hw : ∀ f ∈ fields, 0 < f.weight) :
    0 < ofLowered n (lowerFields fields) ↔ ∃ f ∈ fields, n.touches f.text = true := by
  have hlowered : ∀ f ∈ fields, f.text ≠ "" →
      (0 < ofField n (Text.lower f.text) f.weight ↔ n.touches f.text = true) := by
    intro f hf ht
    rw [ofField_pos_iff (fun h => ht (Text.lower_eq_empty_iff.mp h)) (hw f hf)]
    simp [Needle.touches, ht, hne]
  have hpositive : ∀ f ∈ lowerFields fields, 0 ≤ ofField n f.text f.weight := by
    intro f hf
    obtain ⟨f, hmem, rfl⟩ := List.mem_map.mp hf
    exact ofField_nonneg (hw f (List.mem_filter.mp hmem).1)
  rw [ofLowered, if_neg hne, total_eq_sum, (sum_map_pos_iff hpositive).2]
  constructor
  · rintro ⟨f, hf, hpos⟩
    obtain ⟨f, hkept, rfl⟩ := List.mem_map.mp hf
    obtain ⟨hmem, ht⟩ := List.mem_filter.mp hkept
    exact ⟨f, hmem, (hlowered f hmem (by simpa using ht)).mp hpos⟩
  · rintro ⟨f, hf, htouch⟩
    have ht : f.text ≠ "" := Needle.ne_empty_of_touches htouch
    exact ⟨_, List.mem_map_of_mem (List.mem_filter.mpr ⟨hf, by simpa using ht⟩),
      (hlowered f hf ht).mpr htouch⟩

end Score

end Recall
