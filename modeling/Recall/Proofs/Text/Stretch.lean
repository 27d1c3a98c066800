/-
Recall.Proofs.Text.Stretch — the lower case of a stretch of a text.

A text and its lower case need not be equally long, so a stretch of the text does not stand at the same
positions in lower case. It begins behind the lower case of the characters in front of it, and ends where
the lower case of the text up to its end does (`FromStretch`). Each U+0130 on the way moves it by one.

A stretch is lowered by itself as it is in the text, but for its sigmas. A text without sigmas therefore
occurs in the lower case of the stretch exactly if it occurs in the lower case of the whole, and there
between those two positions (`infix_lower_stretch_iff`).
-/
import Recall.Proofs.Text.Hits
import Recall.Proofs.Text.Place

namespace Recall

namespace Chars

/-! ## 1. Texts without sigmas -/

/-- The final sigma written as in the middle of a word. -/
def plainSigma (c : Char) : Char :=
  if c = 'ς' then 'σ' else c

/-- A text has no small sigma of either form. -/
def SigmaFree (cs : List Char) : Prop := ∀ c ∈ cs, c ≠ 'σ' ∧ c ≠ 'ς'

theorem map_plainSigma_eq_self {cs : List Char} (h : ∀ c ∈ cs, c ≠ 'ς') :
    cs.map plainSigma = cs := by
  conv_rhs => rw [← List.map_id cs]
  exact List.map_congr_left fun c hc => if_neg (h c hc)

/-- What has no sigmas does not see which form others have. -/
theorem infix_map_plainSigma_iff {n cs : List Char} (hn : SigmaFree n) :
    n <:+: cs.map plainSigma ↔ n <:+: cs := by
  constructor
  · intro h
    obtain ⟨m, hm, rfl⟩ := List.infix_map_iff.mp h
    have hplain : ∀ c ∈ m, c ≠ 'ς' := by
      rintro c hc rfl
      exact (hn (plainSigma 'ς') (List.mem_map_of_mem hc)).1 rfl
    rwa [map_plainSigma_eq_self hplain]
  · intro h
    rw [← map_plainSigma_eq_self fun c hc => (hn c hc).2]
    exact h.map plainSigma

/-- Where a sigma stands only decides its form. -/
theorem Place.map_lower_within (as bs : List Char) (p : Place) :
    (p.within as bs).lower.map plainSigma = p.lower.map plainSigma := by
  have hform : ∀ final : Bool, plainSigma (if final = true then 'ς' else 'σ') = 'σ' := by decide
  unfold Place.lower lowerChar Place.within
  by_cases hs : p.char = 'Σ'
  · simp only [if_pos hs, List.map_cons, hform, List.map_nil]
  · simp only [if_neg hs]

theorem map_lowerWithin (as m bs : List Char) :
    (lowerWithin as m bs).map plainSigma = (lower m).map plainSigma := by
  simp only [lowerWithin, lower_eq_flatMap, List.map_flatMap, Place.map_lower_within]

/-! ## 2. Stretches -/

theorem length_lowerWithin (as m bs : List Char) :
    (lowerWithin as m bs).length = (lower m).length := by
  rw [← List.length_map plainSigma, map_lowerWithin, List.length_map]

/-- The lower case of a text from position `i` up to `j` is made of the characters of the text from `s`
up to `t`. -/
def FromStretch (cs : List Char) (s t i j : Nat) : Prop :=
  (lower (cs.take s)).length ≤ i ∧ j ≤ (lower (cs.take t)).length

instance (cs : List Char) (s t i j : Nat) : Decidable (FromStretch cs s t i j) :=
  inferInstanceAs (Decidable (_ ∧ _))

/-- A stretch as it is lowered in the text. -/
theorem drop_take_lower (as m bs : List Char) :
    ((lower (as ++ m ++ bs)).take (lower (as ++ m)).length).drop (lower as).length =
      lowerWithin as m bs := by
  have hstart : (lower as).length = (lowerWithin [] as (m ++ bs)).length :=
    (length_lowerWithin _ _ _).symm
  have hend : (lower (as ++ m)).length =
      (lowerWithin [] as (m ++ bs) ++ lowerWithin as m bs).length := by
    simp only [List.length_append, length_lowerWithin, length_lower, List.count_append]
    omega
  rw [lower_append_append, hend, List.take_left, hstart, List.drop_left]

/-- **What occurs in the lower case of a stretch** is what occurs in the lower case of the text where this
is made of the stretch. -/
theorem infix_lower_stretch_iff {n cs : List Char} (hne : n ≠ []) (hn : SigmaFree n) {s t : Nat}
    (h : s ≤ t) : n <:+: lower ((cs.take t).drop s) ↔
      ∃ i, OccursAt n (lower cs) i ∧ FromStretch cs s t i (i + n.length) := by
  have hfront : cs.take s ++ (cs.take t).drop s = cs.take t := by
    have hsplit := List.take_append_drop s (cs.take t)
    rwa [List.take_take, Nat.min_eq_left h] at hsplit
  have hstretch := drop_take_lower (cs.take s) ((cs.take t).drop s) (cs.drop t)
  rw [hfront, List.take_append_drop] at hstretch
  rw [← infix_map_plainSigma_iff hn, ← map_lowerWithin (cs.take s) _ (cs.drop t),
    infix_map_plainSigma_iff hn, ← hstretch, infix_drop_take_iff hne]
  rfl

end Chars

end Recall
