/-
Recall.Proofs.Text.Occurs — what occurs in a text that was put together from pieces.

Searching goes through joined texts, scoring through the pieces. The two agree because nothing that
lacks the separator gets across it:

* a run without the separator that occurs in the joined text occurs in one of the pieces
  (`infix_join_iff`);
* the lower case of the joined text is that of the pieces, joined (`lower_join`). A capital sigma
  looks for its neighbours on both sides, so this needs a separator that stops the look on either
  side and is not cased itself. A line break and a space are such separators, but an apostrophe is
  not: it is skipped on the way to a neighbour.
-/
import Mathlib.Data.List.Infix
import Recall.Proofs.Text.Case

namespace Recall

namespace Chars

/-! ## 1. Runs of a text -/

theorem occursIn_iff {needle : List Char} : ∀ {cs : List Char},
    occursIn needle cs = true ↔ needle <:+: cs
  | [] => by simp [occursIn]
  | c :: r => by
      rw [occursIn, Bool.or_eq_true, List.isPrefixOf_iff_prefix, occursIn_iff, List.infix_cons_iff]

/-- A prefix without the first character is empty. -/
theorem eq_nil_of_prefix_cons {n bs : List Char} {c : Char} (h : c ∉ n) (hn : n <+: c :: bs) :
    n = [] := by
  rcases List.prefix_cons_iff.mp hn with hnil | ⟨t, rfl, -⟩
  · exact hnil
  · exact absurd List.mem_cons_self h

/-- A run without `c` does not get across `c`. -/
theorem infix_append_cons_iff {n : List Char} {c : Char} (h : c ∉ n) {as bs : List Char} :
    n <:+: as ++ c :: bs ↔ n <:+: as ∨ n <:+: bs := by
  rw [List.infix_append_iff, List.infix_cons_iff]
  constructor
  · rintro (has | (hpre | hbs) | ⟨l, m, rfl, hl, hm⟩)
    · exact .inl has
    · rw [eq_nil_of_prefix_cons h hpre]
      exact .inl List.nil_infix
    · exact .inr hbs
    · -- The part behind the seam would begin with `c`, so the run ends at the seam.
      have hnil : m = [] := eq_nil_of_prefix_cons (fun hc => h (List.mem_append_right l hc)) hm
      rw [hnil, List.append_nil]
      exact .inl hl.isInfix
  · rintro (has | hbs)
    · exact .inl has
    · exact .inr (.inl (.inr hbs))

/-- A run without the separator occurs in the joined text when it occurs in a piece. -/
theorem infix_join_iff {n : List Char} {c : Char} (hne : n ≠ []) (h : c ∉ n) :
    ∀ {ps : List (List Char)}, n <:+: join [c] ps ↔ ∃ p ∈ ps, n <:+: p
  | [] => by simp [join, hne]
  | [p] => by simp [join]
  | p :: q :: r => by
      have ih : n <:+: join [c] (q :: r) ↔ ∃ x ∈ q :: r, n <:+: x := infix_join_iff hne h
      rw [join, List.append_assoc, List.singleton_append, infix_append_cons_iff h, ih]
      simp only [List.mem_cons, exists_eq_or_imp]

/-- Each piece occurs in the joined text. -/
theorem infix_join_of_mem {sep p : List Char} : ∀ {ps : List (List Char)}, p ∈ ps →
    p <:+: join sep ps
  | [q], h => by
      rw [List.mem_singleton.mp h, join]
  | q :: q' :: r, h => by
      rw [join, List.append_assoc]
      rcases List.mem_cons.mp h with rfl | h
      · exact (List.prefix_append _ _).isInfix
      · exact (infix_join_of_mem h).trans
          ((List.suffix_append sep _).trans (List.suffix_append q _)).isInfix

theorem mem_join {sep : List Char} {x : Char} : ∀ {ps : List (List Char)}, x ∈ join sep ps →
    x ∈ sep ∨ ∃ p ∈ ps, x ∈ p
  | [], h => by cases h
  | [p], h => .inr ⟨p, List.mem_cons_self, h⟩
  | p :: q :: r, h => by
      rw [join, List.append_assoc, List.mem_append, List.mem_append] at h
      rcases h with h | h | h
      · exact .inr ⟨p, List.mem_cons_self, h⟩
      · exact .inl h
      · rcases mem_join h with hsep | ⟨p', hp', hmem⟩
        · exact .inl hsep
        · exact .inr ⟨p', List.mem_cons_of_mem p hp', hmem⟩

/-! ## 2. Lowering across a separator -/

/-- A character at which the look for the neighbours of a sigma ends, and finds nothing cased; and
which lowering leaves alone. -/
def Separates (c : Char) : Prop :=
  isCaseIgnorable c = false ∧ isCased c = false ∧ Settled c

instance (c : Char) : Decidable (Separates c) :=
  inferInstanceAs (Decidable (_ ∧ _ ∧ _))

/-- No shift moves a blank. -/
theorem settled_of_isBlank {c : Char} (h : isBlank c = true) : Settled c := by
  rw [isBlank_eq_inRanges] at h
  have hcap : c.toNat < 65 ∨ 90 < c.toNat := by
    by_contra hcap
    rw [inRanges_eq_false (show clearOf blankRanges 65 90 = true by decide) (by omega) (by omega)]
      at h
    cases h
  have hi : c ≠ 'İ' := by
    rintro rfl
    revert h
    decide
  refine settled_of_not_covers hcap hi ?_
  intro s hs
  by_contra hcov
  have hland := landsWell_lowerShifts s hs
  simp only [landsWell, Bool.and_eq_true] at hland
  simp only [covers, Bool.not_eq_false, Bool.and_eq_true, decide_eq_true_eq] at hcov
  rw [inRanges_eq_false hland.1.1.1.2 hcov.1.1 hcov.1.2] at h
  cases h

/-- Every blank separates. -/
theorem separates_of_isBlank {c : Char} (h : isBlank c = true) : Separates c := by
  have hclear : ∀ r ∈ blankRanges, clearOf ignorableRanges r.1 r.2 = true ∧
      clearOf casedRanges r.1 r.2 = true := by decide +kernel
  have hsettled := settled_of_isBlank h
  rw [isBlank_eq_inRanges, inRanges, List.any_eq_true] at h
  obtain ⟨r, hr, hin⟩ := h
  simp only [Bool.and_eq_true, decide_eq_true_eq] at hin
  exact ⟨inRanges_eq_false (hclear r hr).1 hin.1 hin.2,
    inRanges_eq_false (hclear r hr).2 hin.1 hin.2, hsettled⟩

theorem separates_newline : Separates '\n' := separates_of_isBlank (by decide)

theorem separates_space : Separates ' ' := separates_of_isBlank (by decide)

theorem startsCased_append_cons {c : Char} (h : Separates c) (bs : List Char) :
    ∀ as : List Char, startsCased (as ++ c :: bs) = startsCased as
  | [] => by
      simp only [List.nil_append, startsCased, h.1, h.2.1, Bool.false_eq_true, if_false]
  | a :: r => by
      rw [List.cons_append, startsCased, startsCased, startsCased_append_cons h bs r]

/-- Lowering a text at a separator is lowering both sides of it. -/
theorem lowerFrom_append_cons {c : Char} (h : Separates c) (bs : List Char) :
    ∀ (as : List Char) (before : Bool),
      lowerFrom before (as ++ c :: bs) = lowerFrom before as ++ c :: lowerFrom false bs
  | [], before => by
      have hends : endsCased before c = false := by
        rw [endsCased, h.1, if_neg Bool.false_ne_true, h.2.1]
      simp only [List.nil_append, lowerFrom, lowerChar_settled h.2.2, hends, List.singleton_append]
  | a :: r, before => by
      have hchar : lowerChar before a (r ++ c :: bs) = lowerChar before a r := by
        rw [lowerChar, lowerChar, startsCased_append_cons h]
      rw [List.cons_append, lowerFrom, lowerFrom, hchar, lowerFrom_append_cons h bs r,
        List.append_assoc]

/-- The lower case of joined pieces is the lower case of each, joined. -/
theorem lower_join {c : Char} (h : Separates c) : ∀ ps : List (List Char),
    lower (join [c] ps) = join [c] (ps.map lower)
  | [] => rfl
  | [p] => rfl
  | p :: q :: r => by
      have ih := lower_join h (q :: r)
      rw [List.map_cons] at ih
      rw [join, List.append_assoc, List.singleton_append, lower, lowerFrom_append_cons h, ← lower,
        ← lower, ih, List.map_cons, List.map_cons, join, List.append_assoc, List.singleton_append]

/-- What occurs in the lower case of joined pieces occurs in the lower case of one of them. -/
theorem infix_lower_join_iff {n : List Char} {c : Char} (hc : Separates c) (hne : n ≠ [])
    (h : c ∉ n) {ps : List (List Char)} :
    n <:+: lower (join [c] ps) ↔ ∃ p ∈ ps, n <:+: lower p := by
  simp only [lower_join hc, infix_join_iff hne h, List.mem_map, exists_exists_and_eq_and]

/-! Because every blank separates, a text is lowered word by word. -/

theorem isBlank_of_mem_lowerFrom {cs : List Char} {before : Bool} {d : Char}
    (h : d ∈ lowerFrom before cs) : ∃ c ∈ cs, isBlank d = isBlank c := by
  induction cs generalizing before with
  | nil => cases h
  | cons c r ih =>
    rw [lowerFrom, List.mem_append] at h
    rcases h with h | h
    · exact ⟨c, List.mem_cons_self, (mem_lowerChar h).2⟩
    · obtain ⟨c', hc', heq⟩ := ih h
      exact ⟨c', List.mem_cons_of_mem c hc', heq⟩

theorem cut_lower (cs : List Char) : cut isBlank (lower cs) = (cut isBlank cs).map lower := by
  -- A text without blanks is one piece. Any other is lowered on both sides of a blank.
  induction hn : cs.length using Nat.strong_induction_on generalizing cs with
  | _ n ih =>
    by_cases hblank : ∃ c ∈ cs, isBlank c = true
    · obtain ⟨c, hc, hcb⟩ := hblank
      obtain ⟨as, bs, rfl⟩ := List.append_of_mem hc
      rw [List.length_append, List.length_cons] at hn
      have has : as.length < n := by omega
      have hbs : bs.length < n := by omega
      rw [lower, lowerFrom_append_cons (separates_of_isBlank hcb), ← lower, ← lower,
        cut_append_cons hcb, cut_append_cons hcb, ih _ has as rfl, ih _ hbs bs rfl, List.map_append]
    · have hplain : ∀ c ∈ cs, isBlank c = false := by simpa using hblank
      have hlower : ∀ d ∈ lower cs, isBlank d = false := by
        intro d hd
        obtain ⟨c, hc, heq⟩ := isBlank_of_mem_lowerFrom hd
        rw [heq, hplain c hc]
      rw [cut_of_forall_not hplain, cut_of_forall_not hlower, List.map_singleton]

/-- The words of a text in lower case are its words, each in lower case. -/
theorem words_lower (cs : List Char) : words (lower cs) = (words cs).map lower := by
  have hpiece : (fun s : List Char => !s.isEmpty) ∘ lower = fun s => !s.isEmpty := by
    funext s
    rw [Function.comp_apply, Bool.eq_iff_iff]
    simp [lower_eq_nil_iff]
  rw [words, fields, cut_lower, List.filter_map, hpiece, words, fields]

end Chars

namespace Text

/-! ## 3. The same on strings -/

theorem occursIn_iff {needle s : String} :
    occursIn needle s = true ↔ needle.toList <:+: s.toList :=
  Chars.occursIn_iff

theorem occursIn_empty (s : String) : occursIn "" s = true :=
  occursIn_iff.mpr List.nil_infix

theorem lower_eq_empty_iff {s : String} : lower s = "" ↔ s = "" := by
  rw [← String.toList_eq_nil_iff, toList_lower, Chars.lower_eq_nil_iff, String.toList_eq_nil_iff]

/-- Only the empty text occurs in the empty one. -/
theorem ne_empty_of_occursIn_lower {s t : String} (hs : s ≠ "")
    (h : occursIn s (lower t) = true) : t ≠ "" := by
  rintro rfl
  have hinfix : s.toList <:+: [] := occursIn_iff.mp h
  exact hs (String.toList_eq_nil_iff.mp (List.eq_nil_of_infix_nil hinfix))

/-- What occurs in the lower case of joined texts occurs in the lower case of one of them. -/
theorem occursIn_lower_join {s : String} {c : Char} (hc : Chars.Separates c) (hne : s ≠ "")
    (h : c ∉ s.toList) {ps : List String} :
    occursIn s (lower (join (String.singleton c) ps)) = true ↔
      ∃ p ∈ ps, occursIn s (lower p) = true := by
  have hlist : s.toList ≠ [] := fun hnil => hne (String.toList_eq_nil_iff.mp hnil)
  simp only [occursIn_iff, toList_lower, toList_join, String.toList_singleton,
    Chars.infix_lower_join_iff hc hlist h, List.mem_map, exists_exists_and_eq_and]

theorem occursIn_lower_join_of_mem {s p : String} {c : Char} (hc : Chars.Separates c)
    {ps : List String} (hp : p ∈ ps) (h : occursIn s (lower p) = true) :
    occursIn s (lower (join (String.singleton c) ps)) = true := by
  simp only [occursIn_iff, toList_lower, toList_join, String.toList_singleton] at h ⊢
  rw [Chars.lower_join hc, List.map_map]
  exact h.trans (Chars.infix_join_of_mem (List.mem_map.mpr ⟨p, hp, rfl⟩))

end Text

end Recall
