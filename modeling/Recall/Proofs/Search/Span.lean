/-
Recall.Proofs.Search.Span — joining stretches of a text.

Stretches that were found for several patterns overlap, lie in one another, touch or coincide.
`merge` puts them in order and joins them, and this module says what it keeps and what it brings
about: the same positions are covered as before (`covered_merge`), and the stretches that are left
lie one behind the other with something in between (`apart_merge`). The order in which they were
found does not matter (`merge_perm`).

The work is done by `joinFrom`, which extends one stretch as long as the next begins in it or at its
end. It needs to know of the stretches ahead that they begin no earlier than the one that is being
extended; that is all that the sorting is for.
-/
import Recall.Search.Highlight

namespace Recall

namespace Span

/-- One of the stretches has the position. -/
def Covered (spans : List Span) (i : Nat) : Prop :=
  ∃ s ∈ spans, s.start ≤ i ∧ i < s.stop

instance (spans : List Span) (i : Nat) : Decidable (Covered spans i) :=
  inferInstanceAs (Decidable (∃ s ∈ spans, s.start ≤ i ∧ i < s.stop))

@[simp] theorem covered_nil {i : Nat} : ¬ Covered [] i := by
  simp [Covered]

@[simp] theorem covered_cons {s : Span} {spans : List Span} {i : Nat} :
    Covered (s :: spans) i ↔ (s.start ≤ i ∧ i < s.stop) ∨ Covered spans i := by
  simp [Covered]

/-- No stretch is empty or reaches past the end of a text of length `n`. -/
def Inside (n : Nat) (spans : List Span) : Prop :=
  ∀ s ∈ spans, s.start < s.stop ∧ s.stop ≤ n

/-- The stretches are in a text of length `n` and lie one behind the other, with something in between
where one ends and the next begins. -/
structure Apart (n : Nat) (spans : List Span) : Prop where
  inside : Inside n spans
  gaps : spans.Pairwise fun s t => s.stop < t.start

/-- The stretches begin one after the other. -/
def InOrder (spans : List Span) : Prop :=
  spans.Pairwise fun s t => s.start ≤ t.start

variable {n : Nat} {s t : Span} {r spans : List Span}

theorem Inside.cons_iff : Inside n (s :: r) ↔ (s.start < s.stop ∧ s.stop ≤ n) ∧ Inside n r :=
  List.forall_mem_cons

/-! ## 1. Joining -/

/-- Two stretches in order, the second of which begins in the first or at its end, are one. -/
theorem covered_join {i : Nat} (hst : s.start ≤ t.start) (hts : t.start ≤ s.stop) :
    s.start ≤ i ∧ i < max s.stop t.stop ↔
      (s.start ≤ i ∧ i < s.stop) ∨ (t.start ≤ i ∧ i < t.stop) := by
  omega

/-- A joined pair stands before the same stretches as its first did. -/
theorem InOrder.join (h : InOrder (s :: t :: r)) : InOrder (⟨s.start, max s.stop t.stop⟩ :: r) := by
  simp only [InOrder, List.pairwise_cons, List.mem_cons, forall_eq_or_imp] at h ⊢
  exact ⟨h.1.2, h.2.2⟩

theorem covered_joinFrom {i : Nat} : ∀ {r : List Span} {s : Span}, InOrder (s :: r) →
    (Covered (joinFrom s r) i ↔ Covered (s :: r) i)
  | [], s, _ => by simp [joinFrom]
  | t :: r, s, h => by
      have hst : s.start ≤ t.start := (List.pairwise_cons.mp h).1 t List.mem_cons_self
      unfold joinFrom
      split
      · rename_i hts
        rw [covered_joinFrom h.join]
        simp only [covered_cons, covered_join hst hts, or_assoc]
      · rw [covered_cons, covered_joinFrom (List.pairwise_cons.mp h).2, covered_cons (s := s)]

/-- What is joined begins no earlier than the first. -/
theorem start_le_of_mem_joinFrom {u : Span} : ∀ {r : List Span} {s : Span}, InOrder (s :: r) →
    u ∈ joinFrom s r → s.start ≤ u.start
  | [], s, _, hu => by
      simp only [joinFrom, List.mem_singleton] at hu
      simp [hu]
  | t :: r, s, h, hu => by
      have hst : s.start ≤ t.start := (List.pairwise_cons.mp h).1 t List.mem_cons_self
      unfold joinFrom at hu
      split at hu
      · exact start_le_of_mem_joinFrom (s := ⟨s.start, max s.stop t.stop⟩) h.join hu
      · rcases List.mem_cons.mp hu with rfl | hu
        · exact Nat.le_refl _
        · exact Nat.le_trans hst (start_le_of_mem_joinFrom (List.pairwise_cons.mp h).2 hu)

theorem inside_joinFrom : ∀ {r : List Span} {s : Span}, Inside n (s :: r) → Inside n (joinFrom s r)
  | [], s, h => by simpa [joinFrom] using h
  | t :: r, s, h => by
      obtain ⟨hs, htr⟩ := Inside.cons_iff.mp h
      obtain ⟨ht, hr⟩ := Inside.cons_iff.mp htr
      unfold joinFrom
      split
      · refine inside_joinFrom (Inside.cons_iff.mpr ⟨⟨?_, ?_⟩, hr⟩)
        · exact Nat.lt_of_lt_of_le hs.1 (Nat.le_max_left _ _)
        · exact Nat.max_le.mpr ⟨hs.2, ht.2⟩
      · exact Inside.cons_iff.mpr ⟨hs, inside_joinFrom htr⟩

/-- Stretches in order are apart once they are joined. -/
theorem gaps_joinFrom : ∀ {r : List Span} {s : Span}, InOrder (s :: r) →
    (joinFrom s r).Pairwise fun s t => s.stop < t.start
  | [], s, _ => by simp [joinFrom]
  | t :: r, s, h => by
      unfold joinFrom
      split
      · exact gaps_joinFrom h.join
      · rename_i hgap
        have htr : InOrder (t :: r) := (List.pairwise_cons.mp h).2
        refine List.pairwise_cons.mpr ⟨?_, gaps_joinFrom htr⟩
        intro u hu
        have htu := start_le_of_mem_joinFrom htr hu
        omega

/-! ## 2. Sorting -/

theorem le_iff : le s t = true ↔ s.start < t.start ∨ (s.start = t.start ∧ s.stop ≤ t.stop) := by
  simp [le]

theorem le_total (s t : Span) : (le s t || le t s) = true := by
  rw [Bool.or_eq_true, le_iff, le_iff]
  omega

theorem le_trans (s t u : Span) (hst : le s t = true) (htu : le t u = true) : le s u = true := by
  rw [le_iff] at hst htu ⊢
  omega

theorem le_antisymm (hst : le s t = true) (hts : le t s = true) : s = t := by
  cases s
  cases t
  simp only [le_iff, mk.injEq] at hst hts ⊢
  omega

theorem inOrder_sort (spans : List Span) : InOrder (spans.mergeSort le) := by
  refine (List.pairwise_mergeSort le_trans le_total spans).imp ?_
  intro s t h
  rw [le_iff] at h
  omega

/-! ## 3. Merging -/

/-- Merging covers the positions that were covered. -/
theorem covered_merge {i : Nat} : Covered (merge spans) i ↔ Covered spans i := by
  have hsort : Covered (spans.mergeSort le) i ↔ Covered spans i := by
    simp only [Covered, List.mem_mergeSort]
  have horder := inOrder_sort spans
  rw [← hsort]
  unfold merge
  split
  · rename_i hnil
    rw [hnil]
  · rename_i s r heq
    rw [heq] at horder ⊢
    exact covered_joinFrom horder

/-- Merged stretches are apart. -/
theorem apart_merge (h : Inside n spans) : Apart n (merge spans) := by
  have horder := inOrder_sort spans
  have hinside : Inside n (spans.mergeSort le) := fun s hs => h s (List.mem_mergeSort.mp hs)
  unfold merge
  split
  · exact ⟨by simp [Inside], List.Pairwise.nil⟩
  · rename_i s r heq
    rw [heq] at horder hinside
    exact ⟨inside_joinFrom hinside, gaps_joinFrom horder⟩

/-- Merging does not see the order in which stretches come. -/
theorem merge_perm {spans' : List Span} (h : spans.Perm spans') : merge spans = merge spans' := by
  have hsorted : spans.mergeSort le = spans'.mergeSort le := by
    refine List.Perm.eq_of_pairwise ?_ (List.pairwise_mergeSort le_trans le_total spans)
      (List.pairwise_mergeSort le_trans le_total spans')
      ((List.mergeSort_perm _ _).trans (h.trans (List.mergeSort_perm _ _).symm))
    intro s t _ _ hst hts
    exact le_antisymm hst hts
  rw [merge, hsorted, ← merge]

end Span

end Recall
