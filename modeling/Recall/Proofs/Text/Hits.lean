/-
Recall.Proofs.Text.Hits — what a search that skips ahead finds.

The search for a needle goes through a text once, and behind an occurrence it goes on where the
occurrence ends. So it gives occurrences only (`occursAt_of_mem_hits`), and not all of them: one that
overlaps an occurrence found before it is passed over. But none is passed over without a trace, because
the first character of an occurrence is either where the search stood, and then it is found, or inside
the occurrence that the search was skipping (`exists_hit_of_occursAt`).

The first is an induction on the text with the position and the number of characters still to skip left
general, as in the definition of `hitsFrom`. So is what the second comes from: the hits are the
occurrences that one finds by taking the first one again and again (`leftmost_iff`).
-/
import Recall.Proofs.Text.Occurs

namespace Recall

namespace Chars

/-- The needle stands in the text from a position on. -/
def OccursAt (needle cs : List Char) (i : Nat) : Prop :=
  needle <+: cs.drop i

instance (needle cs : List Char) (i : Nat) : Decidable (OccursAt needle cs i) :=
  inferInstanceAs (Decidable (needle <+: cs.drop i))

variable {needle : List Char}

@[simp] theorem occursAt_zero {cs : List Char} : OccursAt needle cs 0 ↔ needle <+: cs := Iff.rfl

@[simp] theorem occursAt_cons {c : Char} {cs : List Char} {i : Nat} :
    OccursAt needle (c :: cs) (i + 1) ↔ OccursAt needle cs i := Iff.rfl

/-- An occurrence ends where the text does or before. -/
theorem OccursAt.add_length_le {cs : List Char} {i : Nat} (hne : needle ≠ [])
    (h : OccursAt needle cs i) : i + needle.length ≤ cs.length := by
  have hlen : needle.length ≤ cs.length - i := by
    simpa using h.length_le
  have hpos : 0 < needle.length := List.length_pos_iff.mpr hne
  omega

/-- What occurs in a text occurs at a position. -/
theorem occursIn_iff_exists_occursAt {cs : List Char} :
    occursIn needle cs = true ↔ ∃ i, OccursAt needle cs i := by
  rw [occursIn_iff]
  constructor
  · rintro ⟨as, bs, rfl⟩
    refine ⟨as.length, ?_⟩
    simp [OccursAt]
  · rintro ⟨i, h⟩
    exact h.isInfix.trans (List.drop_suffix i cs).isInfix

/-! ## 1. What is found -/

theorem occursAt_of_mem_hitsFrom {cs : List Char} : ∀ {pos skip i : Nat},
    i ∈ hitsFrom needle pos skip cs → ∃ k, i = pos + k ∧ OccursAt needle cs k := by
  induction cs with
  | nil => simp [hitsFrom]
  | cons c r ih =>
    intro pos skip i hi
    have behind : ∀ {skip : Nat}, i ∈ hitsFrom needle (pos + 1) skip r →
        ∃ k, i = pos + k ∧ OccursAt needle (c :: r) k := by
      intro skip hi
      obtain ⟨k, rfl, hk⟩ := ih hi
      exact ⟨k + 1, by omega, by simpa using hk⟩
    cases skip with
    | succ k => exact behind hi
    | zero =>
      simp only [hitsFrom] at hi
      split at hi
      · rename_i hhere
        rcases List.mem_cons.mp hi with rfl | hi
        · exact ⟨0, rfl, by simpa using hhere⟩
        · exact behind hi
      · exact behind hi

/-- Every hit is an occurrence. -/
theorem occursAt_of_mem_hits {cs : List Char} {i : Nat} (h : i ∈ hits needle cs) :
    OccursAt needle cs i := by
  obtain ⟨k, rfl, hk⟩ := occursAt_of_mem_hitsFrom h
  simpa using hk

/-! ## 2. What is not missed -/

/-- What is found from a position on by taking the first occurrence there is and going on behind its
end. -/
inductive Leftmost (needle cs : List Char) : Nat → List Nat → Prop
  | done {n : Nat} : (∀ i, n ≤ i → ¬ OccursAt needle cs i) → Leftmost needle cs n []
  | hit {n i : Nat} {is : List Nat} : n ≤ i → OccursAt needle cs i →
      (∀ j, n ≤ j → j < i → ¬ OccursAt needle cs j) →
      Leftmost needle cs (i + needle.length) is → Leftmost needle cs n (i :: is)

/-- Where nothing begins the search may as well begin one position later. -/
theorem Leftmost.of_succ {cs : List Char} {n : Nat} {is : List Nat}
    (hn : ¬ OccursAt needle cs n) (h : Leftmost needle cs (n + 1) is) : Leftmost needle cs n is := by
  cases h with
  | done hnone =>
    refine .done fun i hi => ?_
    rcases Nat.eq_or_lt_of_le hi with rfl | hlt
    · exact hn
    · exact hnone i hlt
  | hit hle hocc hfirst hrest =>
    refine .hit (Nat.le_of_succ_le hle) hocc (fun j hj hji => ?_) hrest
    rcases Nat.eq_or_lt_of_le hj with rfl | hlt
    · exact hn
    · exact hfirst j hlt hji

theorem leftmost_hitsFrom (hne : needle ≠ []) {cs rest : List Char} : ∀ pos skip : Nat,
    cs.drop pos = rest → Leftmost needle cs (pos + skip) (hitsFrom needle pos skip rest) := by
  have hpos : 0 < needle.length := List.length_pos_iff.mpr hne
  induction rest with
  | nil =>
    intro pos _ hrest
    refine .done fun i hi hocc => ?_
    have hend := hocc.add_length_le hne
    have hlen := List.drop_eq_nil_iff.mp hrest
    omega
  | cons c r ih =>
    intro pos skip hrest
    have hr : cs.drop (pos + 1) = r := by
      rw [← List.drop_drop, hrest, List.drop_one, List.tail_cons]
    cases skip with
    | succ k =>
      have hbehind := ih (pos + 1) k hr
      rwa [Nat.add_assoc, Nat.add_comm 1 k] at hbehind
    | zero =>
      have hhere : needle.isPrefixOf (c :: r) = true ↔ OccursAt needle cs pos := by
        rw [List.isPrefixOf_iff_prefix, OccursAt, hrest]
      simp only [hitsFrom, Nat.add_zero]
      split
      · -- Found here: what the search skips next is the rest of this occurrence.
        rename_i hocc
        have hbehind := ih (pos + 1) (needle.length - 1) hr
        have hend : pos + 1 + (needle.length - 1) = pos + needle.length := by omega
        rw [hend] at hbehind
        exact .hit (Nat.le_refl pos) (hhere.mp hocc)
          (fun j hj hlt => absurd hlt (Nat.not_lt_of_le hj)) hbehind
      · rename_i hnot
        exact .of_succ (fun hocc => hnot (hhere.mpr hocc)) (ih (pos + 1) 0 hr)

/-- There is one way to take the first occurrence again and again. -/
theorem Leftmost.eq {cs : List Char} {n : Nat} {is js : List Nat} (hi : Leftmost needle cs n is)
    (hj : Leftmost needle cs n js) : is = js := by
  induction hi generalizing js with
  | done hnone =>
    cases hj with
    | done => rfl
    | hit hle hocc => exact absurd hocc (hnone _ hle)
  | @hit n i is hle hocc hfirst _ ih =>
    cases hj with
    | done hnone => exact absurd hocc (hnone i hle)
    | @hit _ j js hle' hocc' hfirst' hrest' =>
      rcases Nat.lt_trichotomy i j with hlt | rfl | hlt
      · exact absurd hocc (hfirst' i hle hlt)
      · rw [ih hrest']
      · exact absurd hocc' (hfirst j hle' hlt)

/-- The hits are what is found from the start on. -/
theorem leftmost_iff (hne : needle ≠ []) {cs : List Char} {is : List Nat} :
    Leftmost needle cs 0 is ↔ is = hits needle cs := by
  have hhits : Leftmost needle cs 0 (hits needle cs) := leftmost_hitsFrom hne 0 0 List.drop_zero
  constructor
  · exact fun h => h.eq hhits
  · rintro rfl
    exact hhits

example : Leftmost "aaa".toList "aaaa aaa".toList 0 [0, 5] :=
  (leftmost_iff (by decide)).mpr (by decide)

/-- The first character of every occurrence is inside one that is found. -/
theorem Leftmost.exists_mem {cs : List Char} {n k : Nat} {is : List Nat}
    (h : Leftmost needle cs n is) (hn : n ≤ k) (hk : OccursAt needle cs k) :
    ∃ i ∈ is, i ≤ k ∧ k < i + needle.length := by
  induction h with
  | done hnone => exact absurd hk (hnone k hn)
  | @hit n i is _ _ hfirst _ ih =>
    rcases Nat.lt_or_ge k i with hlt | hle
    · exact absurd hk (hfirst k hn hlt)
    · rcases Nat.lt_or_ge k (i + needle.length) with hlt | hge
      · exact ⟨i, List.mem_cons_self, hle, hlt⟩
      · obtain ⟨j, hj, hin⟩ := ih hge
        exact ⟨j, List.mem_cons_of_mem i hj, hin⟩

/-- The first character of every occurrence is inside a hit. -/
theorem exists_hit_of_occursAt (hne : needle ≠ []) {cs : List Char} {k : Nat}
    (h : OccursAt needle cs k) : ∃ i ∈ hits needle cs, i ≤ k ∧ k < i + needle.length :=
  ((leftmost_iff hne).mpr rfl).exists_mem (Nat.zero_le k) h

/-- There are hits where the needle occurs. -/
theorem hits_eq_nil_iff (hne : needle ≠ []) {cs : List Char} :
    hits needle cs = [] ↔ ¬ needle <:+: cs := by
  rw [← occursIn_iff, occursIn_iff_exists_occursAt]
  constructor
  · rintro hnil ⟨k, hk⟩
    obtain ⟨i, hi, -⟩ := exists_hit_of_occursAt hne hk
    rw [hnil] at hi
    cases hi
  · intro hnone
    refine List.eq_nil_iff_forall_not_mem.mpr fun i hi => ?_
    exact hnone ⟨i, occursAt_of_mem_hits hi⟩

theorem find?_eq_none_iff (hne : needle ≠ []) {cs : List Char} :
    find? needle cs = none ↔ occursIn needle cs = false := by
  rw [find?, List.head?_eq_none_iff, hits_eq_nil_iff hne, ← occursIn_iff, Bool.not_eq_true]

/-- The first hit is the first occurrence. -/
theorem find?_eq_some_iff (hne : needle ≠ []) {cs : List Char} {i : Nat} :
    find? needle cs = some i ↔ OccursAt needle cs i ∧ ∀ j, j < i → ¬ OccursAt needle cs j := by
  have hhits : Leftmost needle cs 0 (hits needle cs) := (leftmost_iff hne).mpr rfl
  rw [find?]
  generalize hits needle cs = is at hhits
  cases hhits with
  | done hnone => exact iff_of_false (by simp) fun h => hnone i (Nat.zero_le i) h.1
  | @hit _ k _ _ hocc hfirst _ =>
    rw [List.head?_cons, Option.some.injEq]
    constructor
    · rintro rfl
      exact ⟨hocc, fun j hj => hfirst j (Nat.zero_le j) hj⟩
    · rintro ⟨hi, hmin⟩
      rcases Nat.lt_trichotomy k i with hlt | heq | hlt
      · exact absurd hocc (hmin k hlt)
      · exact heq
      · exact absurd hi (hfirst i (Nat.zero_le i) hlt)

/-! ## 3. Stretches -/

/-- What occurs in a stretch of a text occurs in the text, from its start on and not behind its end. -/
theorem infix_drop_take_iff (hne : needle ≠ []) {cs : List Char} {s t : Nat} :
    needle <:+: (cs.take t).drop s ↔
      ∃ i, OccursAt needle cs i ∧ s ≤ i ∧ i + needle.length ≤ t := by
  have hpos : 0 < needle.length := List.length_pos_iff.mpr hne
  have hat : ∀ i, OccursAt needle (cs.take t) i ↔
      OccursAt needle cs i ∧ i + needle.length ≤ t := by
    intro i
    rw [OccursAt, OccursAt, List.drop_take, List.prefix_take_iff]
    exact and_congr_right' (by omega)
  rw [← occursIn_iff, occursIn_iff_exists_occursAt]
  constructor
  · rintro ⟨i, hi⟩
    rw [OccursAt, List.drop_drop] at hi
    exact ⟨s + i, ((hat _).mp hi).1, Nat.le_add_right s i, ((hat _).mp hi).2⟩
  · rintro ⟨i, hi, hs, ht⟩
    refine ⟨i - s, ?_⟩
    rw [OccursAt, List.drop_drop, Nat.add_sub_cancel' hs]
    exact (hat i).mpr ⟨hi, ht⟩

end Chars

end Recall
