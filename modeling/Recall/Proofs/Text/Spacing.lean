/-
Recall.Proofs.Text.Spacing — how the words of a text are spaced.

A text is *spaced* when its words have one space between neighbours and there are no other blanks,
those at its ends apart. Collapsing a text only respaces it, so the collapsed text stands in the text
itself exactly when the text was spaced to begin with (`collapse_infix_iff`). One direction is a count.
The two texts have the same words, hence the same characters that are no blanks (`flatten_words`), so
where one stands in the other only blanks are left around it (`trim_eq_of_infix`).

Lowering a text leaves its spacing alone (`spaced_lower_iff`): it makes no blank and loses none, and
no piece between blanks gets empty. That is all there is to see, for a text is what its pieces and
the blanks between them make it (`collapse_eq_self_iff`).
-/
import Recall.Proofs.Text.Place

namespace Recall

namespace Chars

/-! ## 1. Pieces in their text -/

section Pieces

variable {α : Type} {p : α → Bool}

/-- The first piece stands at the start. -/
theorem prefix_of_cut_eq_cons : ∀ {as s : List α} {rest : List (List α)},
    cut p as = s :: rest → s <+: as
  | [], s, rest, h => by
      rw [cut, List.cons.injEq] at h
      rw [← h.1]
  | a :: r, s, rest, h => by
      obtain ⟨s', rest', hr, hcut⟩ := exists_cut_cons p a r
      have ih : s' <+: r := prefix_of_cut_eq_cons hr
      rw [hcut] at h
      split at h
      · rw [← (List.cons.inj h).1]
        exact List.nil_prefix
      · rw [← (List.cons.inj h).1]
        exact List.cons_prefix_cons.mpr ⟨rfl, ih⟩

theorem infix_of_mem_cut : ∀ {as s : List α}, s ∈ cut p as → s <:+: as
  | [], s, h => by
      rw [cut, List.mem_singleton] at h
      rw [h]
  | a :: r, s, h => by
      obtain ⟨s', rest, hr, hcut⟩ := exists_cut_cons p a r
      have ih : ∀ x ∈ s' :: rest, x <:+: a :: r := by
        intro x hx
        exact List.infix_cons (infix_of_mem_cut (hr ▸ hx))
      have hfirst : a :: s' <:+: a :: r :=
        (List.cons_prefix_cons.mpr ⟨rfl, prefix_of_cut_eq_cons hr⟩).isInfix
      rw [hcut] at h
      split at h
      · rcases List.mem_cons.mp h with rfl | h
        · exact List.nil_infix
        · exact ih s h
      · rcases List.mem_cons.mp h with rfl | h
        · exact hfirst
        · exact ih s (List.mem_cons_of_mem s' h)

/-- The pieces together are the elements that do not separate. -/
theorem flatten_cut (as : List α) : (cut p as).flatten = as.filter fun a => !p a := by
  induction as with
  | nil => rfl
  | cons a r ih =>
    obtain ⟨s, rest, hr, hcut⟩ := exists_cut_cons p a r
    rw [hr] at ih
    rw [hcut]
    by_cases ha : p a = true <;> simpa [ha] using ih

theorem flatten_fields (as : List α) : (fields p as).flatten = as.filter fun a => !p a := by
  rw [fields, List.flatten_filter_not_isEmpty, flatten_cut]

theorem nil_notMem_cut_cons_iff {a : α} {r : List α} :
    [] ∉ cut p (a :: r) ↔ p a = false ∧ [] ∉ (cut p (a :: r)).tail := by
  obtain ⟨s, rest, -, hcut⟩ := exists_cut_cons p a r
  rw [hcut]
  by_cases ha : p a = true <;> simp [ha]

/-- Behind the first piece none is empty if the last element does not separate, and of any two
neighbours one does not. -/
theorem nil_notMem_tail_cut_iff : ∀ {as : List α}, [] ∉ (cut p as).tail ↔
    (∀ a ∈ as.getLast?, p a = false) ∧ as.IsChain fun a b => p a = false ∨ p b = false
  | [] => by simp [cut]
  | [a] => by by_cases ha : p a = true <;> simp [cut, ha]
  | a :: b :: r => by
      have ih : [] ∉ (cut p (b :: r)).tail ↔ _ := nil_notMem_tail_cut_iff
      obtain ⟨s, rest, hr, hcut⟩ := exists_cut_cons p a (b :: r)
      rw [List.isChain_cons_cons, List.getLast?_cons_cons, hcut]
      by_cases ha : p a = true
      · rw [if_pos ha, List.tail_cons, ← hr, nil_notMem_cut_cons_iff, ih]
        simp only [ha, Bool.true_eq_false, false_or]
        exact and_left_comm
      · rw [hr, List.tail_cons] at ih
        rw [if_neg ha, List.tail_cons, ih]
        simp [ha]

/-- Where everything separates in front of a list and behind it, its pieces are those of the whole. -/
theorem fields_append_append {xs ys : List α} (hx : ∀ a ∈ xs, p a = true)
    (hy : ∀ a ∈ ys, p a = true) (as : List α) : fields p (xs ++ as ++ ys) = fields p as := by
  induction xs with
  | nil =>
    cases ys with
    | nil => rw [List.nil_append, List.append_nil]
    | cons y s =>
      have hs : fields p s = [] :=
        fields_eq_nil_iff.mpr fun a ha => hy a (List.mem_cons_of_mem y ha)
      rw [List.nil_append, fields_append_cons (hy y List.mem_cons_self), hs, List.append_nil]
  | cons x r ih =>
    have hcons : fields p (x :: (r ++ as ++ ys)) = fields p (r ++ as ++ ys) :=
      fields_append_cons (hx x List.mem_cons_self) [] (r ++ as ++ ys)
    rw [List.cons_append, List.cons_append, hcons,
      ih fun a ha => hx a (List.mem_cons_of_mem x ha)]

end Pieces

/-- A word of a text stands in it. -/
theorem infix_of_mem_words {cs w : List Char} (h : w ∈ words cs) : w <:+: cs :=
  infix_of_mem_cut (List.mem_filter.mp h).1

/-- A run without separators stands in a piece. -/
theorem exists_mem_fields_of_infix {p : Char → Bool} {n cs : List Char} (hne : n ≠ [])
    (hn : ∀ c ∈ n, p c = false) (h : n <:+: cs) : ∃ w ∈ fields p cs, n <:+: w := by
  -- Text without a separator is one piece. In any other the run is on one side of a separator.
  induction hlen : cs.length using Nat.strong_induction_on generalizing cs with
  | _ m ih =>
    by_cases hsep : ∃ c ∈ cs, p c = true
    · obtain ⟨c, hc, hpc⟩ := hsep
      obtain ⟨as, bs, rfl⟩ := List.append_of_mem hc
      have hnot : c ∉ n := fun hmem => by simp [hn c hmem] at hpc
      rw [List.length_append, List.length_cons] at hlen
      rw [fields_append_cons hpc]
      rcases (infix_append_cons_iff hnot).mp h with has | hbs
      · obtain ⟨w, hw, hin⟩ := ih as.length (by omega) has rfl
        exact ⟨w, List.mem_append_left _ hw, hin⟩
      · obtain ⟨w, hw, hin⟩ := ih bs.length (by omega) hbs rfl
        exact ⟨w, List.mem_append_right _ hw, hin⟩
    · have hplain : ∀ c ∈ cs, p c = false := by simpa using hsep
      have hcs : cs ≠ [] := by
        rintro rfl
        exact hne (List.eq_nil_of_infix_nil h)
      exact ⟨cs, by simp [fields_of_forall_not hcs hplain], h⟩

/-- Respacing a text does not touch what has no blanks. -/
theorem infix_collapse_iff {n cs : List Char} (hne : n ≠ []) (hn : ∀ c ∈ n, isBlank c = false) :
    n <:+: collapse cs ↔ n <:+: cs := by
  have hspace : ' ' ∉ n := fun hmem => absurd (hn ' ' hmem) (by decide)
  rw [collapse, infix_join_iff hne hspace]
  constructor
  · rintro ⟨w, hw, hin⟩
    exact hin.trans (infix_of_mem_words hw)
  · exact exists_mem_fields_of_infix hne hn

theorem flatten_words (cs : List Char) :
    (words cs).flatten = cs.filter fun c => !isBlank c :=
  flatten_fields cs

/-! ## 2. Ends -/

/-- What goes from the ends of a text goes, and the rest stays together. -/
theorem exists_strip (p : Char → Bool) (cs : List Char) : ∃ xs ys,
    (∀ c ∈ xs, p c = true) ∧ (∀ c ∈ ys, p c = true) ∧ xs ++ strip p cs ++ ys = cs := by
  refine ⟨cs.takeWhile p, (cs.dropWhile p).rtakeWhile p, ?_, ?_, ?_⟩
  · exact fun c hc => List.mem_takeWhile_imp hc
  · exact fun c hc => List.mem_rtakeWhile_imp hc
  · rw [strip, dropRight_eq_rdropWhile, List.append_assoc, List.rdropWhile, List.rtakeWhile,
      ← List.reverse_append, List.takeWhile_append_dropWhile, List.reverse_reverse,
      List.takeWhile_append_dropWhile]

theorem words_trim (cs : List Char) : words (trim cs) = words cs := by
  obtain ⟨xs, ys, hx, hy, h⟩ := exists_strip isBlank cs
  conv_rhs => rw [← h, words, fields_append_append hx hy]
  rfl

theorem prefix_join_cons (sep w : List Char) (ws : List (List Char)) :
    w <+: join sep (w :: ws) := by
  cases ws with
  | nil => exact List.prefix_rfl
  | cons w' r =>
    rw [join, List.append_assoc]
    exact List.prefix_append w _

theorem exists_suffix_join (sep : List Char) : ∀ {ws : List (List Char)}, ws ≠ [] →
    ∃ w ∈ ws, w <:+ join sep ws
  | [w], _ => ⟨w, List.mem_cons_self, List.suffix_rfl⟩
  | w :: w' :: r, _ => by
      obtain ⟨x, hx, hsuffix⟩ := exists_suffix_join sep (List.cons_ne_nil w' r)
      exact ⟨x, List.mem_cons_of_mem w hx, hsuffix.trans (List.suffix_append _ _)⟩

/-- Words that are joined have no blanks at the ends. -/
theorem trim_join {ws : List (List Char)} (h : ∀ w ∈ ws, IsWord w) :
    trim (join [' '] ws) = join [' '] ws := by
  cases ws with
  | nil => rfl
  | cons w r =>
    obtain ⟨s, hs⟩ := prefix_join_cons [' '] w r
    obtain ⟨w', hw', t, ht⟩ := exists_suffix_join [' '] (List.cons_ne_nil w r)
    obtain ⟨hne, hnot⟩ := h w List.mem_cons_self
    obtain ⟨hne', hnot'⟩ := h w' hw'
    refine strip_eq_self_iff.mpr ⟨?_, ?_⟩
    · rw [← hs, List.head?_append_of_ne_nil _ hne]
      exact fun c hc => hnot c (List.mem_of_mem_head? hc)
    · rw [← ht, List.getLast?_append_of_ne_nil _ hne']
      exact fun c hc => hnot' c (List.mem_of_mem_getLast? hc)

theorem trim_collapse (cs : List Char) : trim (collapse cs) = collapse cs :=
  trim_join fun _ hw => isWord_of_mem_words hw

/-- A trimmed text that stands in a text with the same words is what is left of that when it is
trimmed. -/
theorem trim_eq_of_infix {m cs : List Char} (hwords : words m = words cs) (hm : trim m = m)
    (h : m <:+: cs) : trim cs = m := by
  obtain ⟨xs, ys, rfl⟩ := h
  have hfilter : (m.filter fun c => !isBlank c) = (xs ++ m ++ ys).filter fun c => !isBlank c := by
    rw [← flatten_words, ← flatten_words, hwords]
  have hlen := congrArg List.length hfilter
  rw [List.filter_append, List.filter_append, List.length_append, List.length_append] at hlen
  have hxs : (xs.filter fun c => !isBlank c) = [] := List.eq_nil_of_length_eq_zero (by omega)
  have hys : (ys.filter fun c => !isBlank c) = [] := List.eq_nil_of_length_eq_zero (by omega)
  simp only [List.filter_eq_nil_iff, Bool.not_eq_true', Bool.not_eq_false] at hxs hys
  exact strip_append_append hxs hys hm

/-! ## 3. Spaced texts -/

/-- There is one space between neighbouring words and no other blank, but for the ends. -/
def Spaced (cs : List Char) : Prop := trim cs = collapse cs

instance (cs : List Char) : Decidable (Spaced cs) :=
  inferInstanceAs (Decidable (_ = _))

/-- The collapsed text stands in the text exactly when the text is spaced. -/
theorem collapse_infix_iff {cs : List Char} : collapse cs <:+: cs ↔ Spaced cs := by
  constructor
  · exact trim_eq_of_infix (words_collapse cs) (trim_collapse cs)
  · intro h
    obtain ⟨xs, ys, -, -, hcs⟩ := exists_strip isBlank cs
    rw [← h]
    exact ⟨xs, ys, hcs⟩

example : Spaced " deep work\n".toList ∧ ¬ Spaced "deep  work".toList ∧
    ¬ Spaced "deep\twork".toList := by decide

theorem spaced_iff {cs : List Char} : Spaced cs ↔ collapse (trim cs) = trim cs := by
  rw [Spaced, collapse, collapse, words_trim, eq_comm]

/-- Pieces with spaces where they were cut are the text, if it was cut at spaces only. -/
theorem join_cut : ∀ {cs : List Char}, (∀ c ∈ cs.filter isBlank, c = ' ') →
    join [' '] (cut isBlank cs) = cs
  | [], _ => rfl
  | c :: r, h => by
      obtain ⟨s, rest, hr, hcut⟩ := exists_cut_cons isBlank c r
      have ih : join [' '] (s :: rest) = r := by
        rw [← hr]
        refine join_cut fun d hd => h d ?_
        exact ((List.sublist_cons_self c r).filter isBlank).subset hd
      rw [hcut]
      by_cases hc : isBlank c = true
      · have hspace : c = ' ' := h c (List.mem_filter.mpr ⟨List.mem_cons_self, hc⟩)
        rw [if_pos hc, join, ih, hspace]
        rfl
      · rw [if_neg hc, ← ih]
        cases rest <;> rfl

theorem cut_join : ∀ {ws : List (List Char)}, ws ≠ [] →
    (∀ w ∈ ws, ∀ c ∈ w, isBlank c = false) → cut isBlank (join [' '] ws) = ws
  | [w], _, h => cut_of_forall_not (h w List.mem_cons_self)
  | w :: w' :: r, _, h => by
      have ih : cut isBlank (join [' '] (w' :: r)) = w' :: r :=
        cut_join (List.cons_ne_nil w' r) fun x hx => h x (List.mem_cons_of_mem w hx)
      rw [join, List.append_assoc, List.singleton_append, cut_append_cons (by decide), ih,
        cut_of_forall_not (h w List.mem_cons_self), List.singleton_append]

/-- A text is its words with single spaces between them when its blanks are spaces, and no piece
between two of them is empty. -/
theorem collapse_eq_self_iff {cs : List Char} : collapse cs = cs ↔
    (∀ c ∈ cs.filter isBlank, c = ' ') ∧ ([] ∈ cut isBlank cs → cs = []) := by
  constructor
  · intro h
    constructor
    · intro c hc
      obtain ⟨hmem, hblank⟩ := List.mem_filter.mp hc
      rw [← h] at hmem
      rcases mem_join hmem with hspace | ⟨w, hw, hmem⟩
      · exact List.mem_singleton.mp hspace
      · rw [(isWord_of_mem_words hw).2 c hmem] at hblank
        cases hblank
    · intro hnil
      by_cases hws : words cs = []
      · rw [← h, collapse, hws]
        rfl
      · rw [← h, collapse, cut_join hws fun w hw => (isWord_of_mem_words hw).2] at hnil
        exact absurd rfl (isWord_of_mem_words hnil).1
  · rintro ⟨hspaces, hnil⟩
    by_cases hmem : [] ∈ cut isBlank cs
    · rw [hnil hmem]
      rfl
    · have hwords : words cs = cut isBlank cs := by
        refine List.filter_eq_self.mpr fun s hs => ?_
        simpa using fun hs' : s = [] => hmem (hs' ▸ hs)
      rw [collapse, hwords, join_cut hspaces]

/-- A text without blanks at its ends, or two in a row, or any but spaces. -/
structure Tidy (cs : List Char) : Prop where
  head : ∀ c ∈ cs.head?, isBlank c = false
  last : ∀ c ∈ cs.getLast?, isBlank c = false
  single : cs.IsChain fun c d => isBlank c = false ∨ isBlank d = false
  space : ∀ c ∈ cs, isBlank c = true → c = ' '

/-- The tidy texts are those that collapsing leaves alone. -/
theorem tidy_iff {cs : List Char} : Tidy cs ↔ collapse cs = cs := by
  have hspaces : (∀ c ∈ cs.filter isBlank, c = ' ') ↔ ∀ c ∈ cs, isBlank c = true → c = ' ' := by
    simp only [List.mem_filter, and_imp]
  rw [collapse_eq_self_iff, hspaces]
  cases cs with
  | nil => exact iff_of_true ⟨by simp, by simp, .nil, by simp⟩ (by simp)
  | cons c r =>
    have hpieces : ([] ∈ cut isBlank (c :: r) → c :: r = []) ↔ [] ∉ cut isBlank (c :: r) := by
      simp only [List.cons_ne_nil, imp_false]
    rw [hpieces, nil_notMem_cut_cons_iff, nil_notMem_tail_cut_iff]
    constructor
    · intro h
      exact ⟨h.space, h.head c rfl, h.last, h.single⟩
    · rintro ⟨hspace, hhead, hlast, hsingle⟩
      exact ⟨by simpa using hhead, hlast, hsingle, hspace⟩

/-! ## 4. Spacing under lowering -/

theorem collapse_lower (cs : List Char) : collapse (lower cs) = lower (collapse cs) := by
  rw [collapse, words_lower, collapse, lower_join separates_space]

theorem trim_lower (cs : List Char) : trim (lower cs) = lower (trim cs) := by
  obtain ⟨xs, ys, hx, hy, h⟩ := exists_strip isBlank cs
  have hfree : StandsFree xs ys :=
    ⟨fun c hc => hx c (List.mem_of_mem_getLast? hc), fun c hc => hy c (List.mem_of_mem_head? hc)⟩
  have hinfix := lower_infix_of_keepsSigmas (keepsSigmas_of_standsFree hfree (strip isBlank cs))
  rw [h] at hinfix
  refine trim_eq_of_infix ?_ (trim_lower_eq_self_iff.mpr (trim_trim cs)) hinfix
  rw [words_lower, words_lower, words_trim]

/-- Lowering makes no blank and loses none. -/
theorem filter_isBlank_lowerFrom (cs : List Char) (before : Bool) :
    (lowerFrom before cs).filter isBlank = cs.filter isBlank := by
  induction cs generalizing before with
  | nil => rfl
  | cons c r ih =>
    rw [lowerFrom, List.filter_append, ih]
    by_cases hc : isBlank c = true
    · rw [lowerChar_settled (settled_of_isBlank hc), List.filter_cons_of_pos hc,
        List.filter_cons_of_pos hc]
      rfl
    · have hnil : (lowerChar before c r).filter isBlank = [] := by
        refine List.filter_eq_nil_iff.mpr fun d hd => ?_
        rwa [(mem_lowerChar hd).2]
      rw [hnil, List.filter_cons_of_neg hc, List.nil_append]

theorem nil_mem_cut_lower {cs : List Char} : [] ∈ cut isBlank (lower cs) ↔ [] ∈ cut isBlank cs := by
  simp only [cut_lower, List.mem_map, lower_eq_nil_iff, exists_eq_right]

/-- The lower case of a text is spaced if and only if the text is. -/
theorem spaced_lower_iff {cs : List Char} : Spaced (lower cs) ↔ Spaced cs := by
  rw [spaced_iff, spaced_iff, trim_lower, collapse_eq_self_iff, collapse_eq_self_iff,
    nil_mem_cut_lower, lower_eq_nil_iff, lower, filter_isBlank_lowerFrom]

end Chars

end Recall
