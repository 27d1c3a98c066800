/-
Recall.Proofs.Text.Case — what lowering leaves behind.

A character is *settled* when lowering leaves it alone wherever it stands. Lowering gives settled
characters only (`settled_of_mem_lowerFrom`), so a text that has been lowered does not change when it is
lowered again (`lower_lower`). Nor does lowering make or lose a blank, so a text is trimmed if and only
if its lower case is (`trim_lower_eq_self_iff`). And where a text and its lower case are equally long,
the characters of one stand at the places of the other's (`getElem?_lower`).

Both rest on the table of shifts. What the table promises is computed once, over pairs of shifts and
not over code points: where a shift lands there is a character, it is no blank and not U+0130
(`landsWell`), and no shift covers it (`apart`).
-/
import Mathlib.Data.List.Basic
import Recall.Proofs.Text.Chars
import Recall.Text.Case

namespace Recall

namespace Chars

/-! ## 1. What the table promises -/

/-- Whether a shift moves a code point. -/
def covers (s : Nat × Nat × Nat × Int) (n : Nat) : Bool :=
  s.1 ≤ n && n ≤ s.2.1 && (n - s.1) % s.2.2.1 == 0

/-- Where a shift moves a code point. -/
def image (s : Nat × Nat × Nat × Int) (n : Nat) : Nat :=
  ((n : Int) + s.2.2.2).toNat

/-- The code points of the blank characters. -/
def blankRanges : List (Nat × Nat) :=
  [(0x09, 0x0D), (0x1C, 0x20), (0x85, 0x85), (0xA0, 0xA0), (0x1680, 0x1680), (0x2000, 0x200A),
   (0x2028, 0x2029), (0x202F, 0x202F), (0x205F, 0x205F), (0x3000, 0x3000)]

theorem isBlank_eq_inRanges (c : Char) : isBlank c = inRanges blankRanges c.toNat := by
  rw [Bool.eq_iff_iff]
  simp only [isBlank, inRanges, blankRanges, List.any_cons, List.any_nil, Bool.or_eq_true,
    Bool.and_eq_true, decide_eq_true_eq, beq_iff_eq, Bool.or_false]
  omega

/-- Whether none of the code points from `lo` to `hi` is in one of the ranges. -/
def clearOf (ranges : List (Nat × Nat)) (lo hi : Nat) : Bool :=
  ranges.all fun r => hi < r.1 || r.2 < lo

theorem inRanges_eq_false {ranges : List (Nat × Nat)} {lo hi n : Nat}
    (h : clearOf ranges lo hi = true) (hlo : lo ≤ n) (hhi : n ≤ hi) :
    inRanges ranges n = false := by
  rw [inRanges, List.any_eq_false]
  intro r hr
  have hclear := List.all_eq_true.mp h r hr
  simp only [Bool.or_eq_true, Bool.and_eq_true, decide_eq_true_eq] at hclear ⊢
  omega

/-- Whether a shift moves characters that are no blanks to characters that are no blanks, none of
them U+0130 or an ASCII capital. -/
def landsWell (s : Nat × Nat × Nat × Int) : Bool :=
  let lo := image s s.1
  let hi := image s s.2.1
  0 ≤ (s.1 : Int) + s.2.2.2 && clearOf blankRanges s.1 s.2.1 && clearOf blankRanges lo hi &&
    clearOf [(65, 90), (304, 304), (0xD800, 0xDFFF)] lo hi && hi < 0x110000

/-- Whether no code point that one shift gives is covered by another: their ranges do not meet, or
both go by twos and keep out of step. Comparisons are spelled out so that the pairs of a long table
are gone through quickly. -/
def apart (s t : Nat × Nat × Nat × Int) : Bool :=
  let lo := image s s.1
  Nat.blt (image s s.2.1) t.1 || (Nat.blt t.2.1 lo ||
    ((Nat.beq s.1 s.2.1 || Nat.beq s.2.2.1 2) && (Nat.beq t.1 t.2.1 || Nat.beq t.2.2.1 2) &&
      Nat.beq ((lo + t.1) % 2) 1))

theorem landsWell_lowerShifts : ∀ s ∈ lowerShifts, landsWell s = true := by
  decide +kernel

theorem all_apart_lowerShifts :
    (lowerShifts.all fun s => lowerShifts.all fun t => apart s t) = true := by
  decide +kernel

theorem apart_lowerShifts {s t : Nat × Nat × Nat × Int} (hs : s ∈ lowerShifts)
    (ht : t ∈ lowerShifts) : apart s t = true :=
  List.all_eq_true.mp (List.all_eq_true.mp all_apart_lowerShifts s hs) t ht

/-- An image is between the images of the ends. -/
theorem image_mem {s : Nat × Nat × Nat × Int} {n : Nat} (hn : covers s n = true) :
    image s s.1 ≤ image s n ∧ image s n ≤ image s s.2.1 := by
  simp only [covers, Bool.and_eq_true, decide_eq_true_eq, beq_iff_eq] at hn
  simp only [image]
  omega

theorem not_covers_image {s t : Nat × Nat × Nat × Int} {n : Nat} (hs : landsWell s = true)
    (hn : covers s n = true) (h : apart s t = true) : covers t (image s n) = false := by
  have hmem := image_mem hn
  by_contra hcov
  simp only [landsWell, Bool.and_eq_true, decide_eq_true_eq] at hs
  simp only [covers, Bool.and_eq_true, decide_eq_true_eq, beq_iff_eq, Bool.not_eq_false]
    at hn hcov
  simp only [apart, Bool.and_eq_true, Bool.or_eq_true, Nat.blt_eq, Nat.beq_eq] at h
  obtain ⟨⟨hlo, hhi⟩, hstep⟩ := hn
  obtain ⟨⟨hlo', hhi'⟩, hstep'⟩ := hcov
  rcases h with h | h | ⟨⟨h, h'⟩, hodd⟩
  · omega
  · omega
  · -- Both keep to one parity, and the two are different.
    have hs2 : (image s n + image s s.1) % 2 = 0 := by
      rcases h with h | h
      · obtain rfl : n = s.1 := by omega
        omega
      · rw [h] at hstep
        simp only [image]
        omega
    have ht2 : (image s n + t.1) % 2 = 0 := by
      rcases h' with h' | h'
      · omega
      · rw [h'] at hstep'
        omega
    omega

theorem shifted?_eq_some {shifts : List (Nat × Nat × Nat × Int)} {n m : Nat}
    (h : shifted? shifts n = some m) : ∃ s ∈ shifts, covers s n = true ∧ m = image s n := by
  obtain ⟨s, hs, hm⟩ := List.exists_of_findSome?_eq_some h
  refine ⟨s, hs, ?_⟩
  obtain ⟨first, last, step, delta⟩ := s
  simp only [Option.ite_none_right_eq_some, Option.some.injEq] at hm
  obtain ⟨⟨hlo, hhi, hstep⟩, rfl⟩ := hm
  exact ⟨by simp [covers, hlo, hhi, hstep], rfl⟩

theorem shifted?_eq_none {shifts : List (Nat × Nat × Nat × Int)} {n : Nat}
    (h : ∀ s ∈ shifts, covers s n = false) : shifted? shifts n = none := by
  refine List.findSome?_eq_none_iff.mpr fun s hs => ?_
  have hcov := h s hs
  simp only [covers, Bool.and_eq_false_iff, decide_eq_false_iff_not, beq_eq_false_iff_ne]
    at hcov
  exact if_neg (by tauto)

/-! ## 2. Settled characters -/

/-- A character that lowering leaves alone wherever it stands. -/
def Settled (c : Char) : Prop :=
  c ≠ 'Σ' ∧ c ≠ 'İ' ∧ lowerOne c = c

instance (c : Char) : Decidable (Settled c) :=
  inferInstanceAs (Decidable (_ ∧ _ ∧ _))

theorem settled_ascii : ∀ n : Fin 0x80, n.val < 65 ∨ 90 < n.val → Settled (Char.ofNat n) := by
  decide +kernel

theorem lowerOne_capital : ∀ n : Fin 26, Settled (lowerOne (Char.ofNat (65 + n))) ∧
    isBlank (lowerOne (Char.ofNat (65 + n))) = false := by
  decide +kernel

/-- What no shift covers is settled, save U+0130 and the ASCII capitals. -/
theorem settled_of_not_covers {c : Char} (hcap : c.toNat < 65 ∨ 90 < c.toNat) (hi : c ≠ 'İ')
    (h : ∀ s ∈ lowerShifts, covers s c.toNat = false) : Settled c := by
  by_cases hascii : c.toNat < 0x80
  · simpa using settled_ascii ⟨c.toNat, hascii⟩ hcap
  · refine ⟨?_, hi, ?_⟩
    · rintro rfl
      have := h (931, 939, 1, 32) (by decide +kernel)
      simp [covers] at this
    · rw [lowerOne, if_neg hascii, shifted?_eq_none h]
      rfl

/-- The lower case of a character that is not an ASCII capital, seen through the table. -/
theorem lowerOne_cases {c : Char} (hcap : c.toNat < 65 ∨ 90 < c.toNat) :
    lowerOne c = c ∨
    ∃ s ∈ lowerShifts, covers s c.toNat = true ∧ (lowerOne c).toNat = image s c.toNat := by
  by_cases hascii : c.toNat < 0x80
  · have := (settled_ascii ⟨c.toNat, hascii⟩ hcap).2.2
    exact .inl (by simpa using this)
  rw [lowerOne, if_neg hascii]
  cases hm : shifted? lowerShifts c.toNat with
  | none => exact .inl rfl
  | some m =>
    obtain ⟨s, hs, hcov, rfl⟩ := shifted?_eq_some hm
    refine .inr ⟨s, hs, hcov, ?_⟩
    have hland := landsWell_lowerShifts s hs
    have hmem := image_mem hcov
    simp only [landsWell, Bool.and_eq_true, decide_eq_true_eq, clearOf, List.all_cons, List.all_nil,
      Bool.or_eq_true] at hland
    have hvalid : (image s c.toNat).isValidChar := by
      simp only [Nat.isValidChar]
      omega
    change (Char.ofNat (image s c.toNat)).toNat = image s c.toNat
    rw [Char.ofNat, dif_pos hvalid]
    rfl

/-- An ASCII capital by its place in the alphabet. -/
theorem exists_capital {c : Char} (h : ¬ (c.toNat < 65 ∨ 90 < c.toNat)) :
    ∃ n : Fin 26, c = Char.ofNat (65 + n) := by
  refine ⟨⟨c.toNat - 65, by omega⟩, ?_⟩
  have hn : 65 + (c.toNat - 65) = c.toNat := by omega
  simp [hn]

theorem settled_lowerOne {c : Char} (hs : c ≠ 'Σ') (hi : c ≠ 'İ') : Settled (lowerOne c) := by
  by_cases hcap : c.toNat < 65 ∨ 90 < c.toNat
  · rcases lowerOne_cases hcap with h | ⟨s, hmem, hcov, himage⟩
    · rw [h]
      exact ⟨hs, hi, h⟩
    · have hland := landsWell_lowerShifts s hmem
      have hrange := image_mem hcov
      have hclear := hland
      simp only [landsWell, Bool.and_eq_true, clearOf, List.all_cons, List.all_nil, Bool.or_eq_true,
        decide_eq_true_eq] at hclear
      refine settled_of_not_covers (by omega) ?_ fun t ht => ?_
      · intro h
        have : (lowerOne c).toNat = 304 := by rw [h]; rfl
        omega
      · rw [himage]
        exact not_covers_image hland hcov (apart_lowerShifts hmem ht)
  · obtain ⟨n, rfl⟩ := exists_capital hcap
    exact (lowerOne_capital n).1

/-- A character and its lower case are blank together. -/
theorem isBlank_lowerOne (c : Char) : isBlank (lowerOne c) = isBlank c := by
  by_cases hcap : c.toNat < 65 ∨ 90 < c.toNat
  · rcases lowerOne_cases hcap with h | ⟨s, hmem, hcov, himage⟩
    · rw [h]
    · have hland := landsWell_lowerShifts s hmem
      have hrange := image_mem hcov
      simp only [landsWell, Bool.and_eq_true] at hland
      obtain ⟨⟨⟨⟨-, hdom⟩, himg⟩, -⟩, -⟩ := hland
      simp only [covers, Bool.and_eq_true, decide_eq_true_eq] at hcov
      rw [isBlank_eq_inRanges, isBlank_eq_inRanges, himage,
        inRanges_eq_false himg hrange.1 hrange.2, inRanges_eq_false hdom hcov.1.1 hcov.1.2]
  · have hclear : clearOf blankRanges 65 90 = true := by decide
    rw [isBlank_eq_inRanges c, inRanges_eq_false hclear (by omega) (by omega)]
    obtain ⟨n, rfl⟩ := exists_capital hcap
    exact (lowerOne_capital n).2

/-! ## 3. Lowering a text -/

/-- One character is lowered to one or two, none of them unsettled, and blank if it is. -/
theorem mem_lowerChar {before : Bool} {c d : Char} {after : List Char}
    (h : d ∈ lowerChar before c after) : Settled d ∧ isBlank d = isBlank c := by
  unfold lowerChar at h
  split at h
  · rename_i hc
    subst hc
    rw [List.mem_singleton] at h
    split at h <;> subst h <;> decide +kernel
  · split at h
    · rename_i hc
      subst hc
      simp only [List.mem_cons, List.not_mem_nil, or_false] at h
      rcases h with rfl | rfl <;> decide +kernel
    · rename_i hs hi
      rw [List.mem_singleton] at h
      subst h
      exact ⟨settled_lowerOne hs hi, isBlank_lowerOne c⟩

theorem lowerChar_ne_nil (before : Bool) (c : Char) (after : List Char) :
    lowerChar before c after ≠ [] := by
  unfold lowerChar
  split
  · simp
  · split <;> simp

theorem lowerChar_settled {c : Char} (h : Settled c) (before : Bool) (after : List Char) :
    lowerChar before c after = [c] := by
  rw [lowerChar, if_neg h.1, if_neg h.2.1, h.2.2]

theorem lowerFrom_settled : ∀ {cs : List Char}, (∀ c ∈ cs, Settled c) → ∀ before : Bool,
    lowerFrom before cs = cs
  | [], _, _ => rfl
  | c :: r, h, before => by
      rw [lowerFrom, lowerChar_settled (h c List.mem_cons_self),
        lowerFrom_settled (fun d hd => h d (List.mem_cons_of_mem c hd)), List.singleton_append]

theorem settled_of_mem_lowerFrom : ∀ {cs : List Char} {before : Bool} {d : Char},
    d ∈ lowerFrom before cs → Settled d
  | [], _, _, h => by simp [lowerFrom] at h
  | c :: r, before, d, h => by
      rw [lowerFrom, List.mem_append] at h
      rcases h with h | h
      · exact (mem_lowerChar h).1
      · exact settled_of_mem_lowerFrom h

/-- A text that has been lowered stays as it is. -/
theorem lower_lower (cs : List Char) : lower (lower cs) = lower cs :=
  lowerFrom_settled (fun _ h => settled_of_mem_lowerFrom h) false

theorem lowerFrom_eq_nil_iff {cs : List Char} {before : Bool} :
    lowerFrom before cs = [] ↔ cs = [] := by
  cases cs with
  | nil => simp [lowerFrom]
  | cons c r => simp [lowerFrom, lowerChar_ne_nil]

theorem lower_eq_nil_iff {cs : List Char} : lower cs = [] ↔ cs = [] := lowerFrom_eq_nil_iff

/-! A text and its lower case begin and end in a blank together, so they are trimmed together. -/

theorem isBlank_head?_lowerFrom (before : Bool) (cs : List Char) :
    (lowerFrom before cs).head?.map isBlank = cs.head?.map isBlank := by
  cases cs with
  | nil => rfl
  | cons c r =>
    cases hd : (lowerFrom before (c :: r)).head? with
    | none =>
      rw [List.head?_eq_none_iff, lowerFrom_eq_nil_iff] at hd
      cases hd
    | some d =>
      rw [lowerFrom, List.head?_append_of_ne_nil _ (lowerChar_ne_nil before c r)] at hd
      rw [Option.map_some, (mem_lowerChar (List.mem_of_mem_head? hd)).2, List.head?_cons,
        Option.map_some]

theorem isBlank_getLast?_lowerFrom : ∀ (before : Bool) (cs : List Char),
    (lowerFrom before cs).getLast?.map isBlank = cs.getLast?.map isBlank
  | _, [] => rfl
  | before, [c] => by
      cases hd : (lowerChar before c []).getLast? with
      | none => exact absurd (List.getLast?_eq_none_iff.mp hd) (lowerChar_ne_nil before c [])
      | some d =>
        rw [lowerFrom, lowerFrom, List.append_nil, hd, Option.map_some,
          (mem_lowerChar (List.mem_of_mem_getLast? hd)).2, List.getLast?_singleton, Option.map_some]
  | before, c :: c' :: r => by
      have hne : lowerFrom (endsCased before c) (c' :: r) ≠ [] := fun hnil =>
        absurd (lowerFrom_eq_nil_iff.mp hnil) (List.cons_ne_nil c' r)
      rw [lowerFrom, List.getLast?_append_of_ne_nil _ hne, isBlank_getLast?_lowerFrom,
        List.getLast?_cons_cons]

theorem trim_eq_self_iff {cs : List Char} : trim cs = cs ↔
    cs.head?.map isBlank ≠ some true ∧ cs.getLast?.map isBlank ≠ some true := by
  rw [trim, strip_eq_self_iff]
  cases cs.head? <;> cases cs.getLast? <;> simp

/-- The lower case of a text is trimmed if and only if the text is. -/
theorem trim_lower_eq_self_iff {cs : List Char} : trim (lower cs) = lower cs ↔ trim cs = cs := by
  rw [trim_eq_self_iff, trim_eq_self_iff, lower, isBlank_head?_lowerFrom, isBlank_getLast?_lowerFrom]

/-! ## 4. Length

Of all characters only U+0130 is lowered to two. So a text without it keeps its length, and each of its
characters keeps its place. -/

theorem length_lowerChar (before : Bool) (c : Char) (after : List Char) :
    (lowerChar before c after).length = if c = 'İ' then 2 else 1 := by
  unfold lowerChar
  split
  · rename_i hc
    subst hc
    simp
  · split <;> rfl

theorem length_lowerFrom (before : Bool) (cs : List Char) :
    (lowerFrom before cs).length = cs.length + cs.count 'İ' := by
  induction cs generalizing before with
  | nil => rfl
  | cons c r ih =>
    simp only [lowerFrom, List.length_append, length_lowerChar, ih, List.length_cons,
      List.count_cons, beq_iff_eq]
    split <;> omega

theorem length_lower (cs : List Char) : (lower cs).length = cs.length + cs.count 'İ' :=
  length_lowerFrom false cs

theorem length_lower_eq_iff {cs : List Char} : (lower cs).length = cs.length ↔ 'İ' ∉ cs := by
  rw [length_lower, ← List.count_eq_zero]
  omega

theorem exists_lowerChar_eq {c : Char} (h : 'İ' ≠ c) (before : Bool) (after : List Char) :
    ∃ d, lowerChar before c after = [d] := by
  refine List.length_eq_one_iff.mp ?_
  rw [length_lowerChar, if_neg h.symm]

/-- Behind a text that keeps its length a character keeps its place. -/
theorem getElem?_lowerFrom {c : Char} {bs : List Char} (hc : 'İ' ≠ c) {as : List Char}
    (has : 'İ' ∉ as) (before : Bool) :
    ∃ d, lowerChar (as.foldl endsCased before) c bs = [d] ∧
      (lowerFrom before (as ++ c :: bs))[as.length]? = some d := by
  induction as generalizing before with
  | nil =>
    obtain ⟨d, hd⟩ := exists_lowerChar_eq hc before bs
    exact ⟨d, hd, by simp [lowerFrom, hd]⟩
  | cons a as ih =>
    rw [List.mem_cons, not_or] at has
    obtain ⟨x, hx⟩ := exists_lowerChar_eq has.1 before (as ++ c :: bs)
    obtain ⟨d, hd, hplace⟩ := ih has.2 (endsCased before a)
    exact ⟨d, hd, by simp [lowerFrom, hx, hplace]⟩

/-- In a text that keeps its length every character keeps its place. -/
theorem getElem?_lower {as bs : List Char} {c : Char}
    (h : (lower (as ++ c :: bs)).length = (as ++ c :: bs).length) :
    ∃ d, lowerChar (as.foldl endsCased false) c bs = [d] ∧
      (lower (as ++ c :: bs))[as.length]? = some d := by
  rw [length_lower_eq_iff, List.mem_append, List.mem_cons, not_or, not_or] at h
  exact getElem?_lowerFrom h.2.1 h.1 false

end Chars

namespace Text

theorem lower_lower (s : String) : lower (lower s) = lower s := by
  apply String.toList_injective
  simp [Chars.lower_lower]

/-- Trimming a text shows in its lower case. -/
theorem lower_trim_eq_iff {s : String} : lower (trim s) = lower s ↔ trim s = s := by
  constructor
  · intro h
    have hlower : Chars.lower (Chars.trim s.toList) = Chars.lower s.toList := by
      rw [← toList_trim, ← toList_lower, h, toList_lower]
    have htrim : Chars.trim (Chars.lower s.toList) = Chars.lower s.toList := by
      rw [← hlower]
      exact Chars.trim_lower_eq_self_iff.mpr (Chars.trim_trim _)
    apply String.toList_injective
    rw [toList_trim]
    exact Chars.trim_lower_eq_self_iff.mp htrim
  · intro h
    rw [h]

end Text

end Recall
