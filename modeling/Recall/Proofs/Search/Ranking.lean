/-
Recall.Proofs.Search.Ranking — the first few of a ranked list are the first few of the sorted list.

Two facts about rankings are used further on.

* `top_eq_take_sorted`: `top` is a prefix of `sorted`, ties included. When the limit cuts, `top` runs
  `smallest` over the items with their places. Places are distinct, so the rows have only one sorted
  order, and the bounded pass and the sort must both arrive at it (`smallest_eq_take_mergeSort`).
* `pairwise_before_sorted`: in `sorted` of items whose places increase, every item is *before* every
  later one. `Before` is the order in which results are promised: by score and time, and by place
  where these are equal. So it is a strict order, and there is nothing left to choose.
-/
import Mathlib.Data.List.Sort
import Recall.Search.Ranking

namespace Recall

namespace Ranking

variable {α σ : Type} [LinearOrder σ]

/-! ## 1. Rankings are total orders up to ties -/

theorem le_total (r : Ranking) (score : α → σ) (time : α → Int) (a b : α) :
    (r.le score time a b || r.le score time b a) = true := by
  cases r with
  | oldest => simpa [le] using Int.le_total (time a) (time b)
  | newest => simpa [le] using Int.le_total (time b) (time a)
  | relevance =>
    simp only [le, Bool.or_eq_true, Bool.and_eq_true, decide_eq_true_eq, beq_iff_eq]
    rcases lt_trichotomy (score a) (score b) with h | h | h
    · exact .inr (.inl h)
    · rcases Int.le_total (time a) (time b) with ht | ht
      · exact .inr (.inr ⟨h.symm, ht⟩)
      · exact .inl (.inr ⟨h, ht⟩)
    · exact .inl (.inl h)

theorem le_trans (r : Ranking) (score : α → σ) (time : α → Int) (a b c : α)
    (hab : r.le score time a b = true) (hbc : r.le score time b c = true) :
    r.le score time a c = true := by
  cases r with
  | oldest =>
    simp only [le, decide_eq_true_eq] at *
    exact Int.le_trans hab hbc
  | newest =>
    simp only [le, decide_eq_true_eq] at *
    exact Int.le_trans hbc hab
  | relevance =>
    simp only [le, Bool.or_eq_true, Bool.and_eq_true, decide_eq_true_eq, beq_iff_eq] at *
    rcases hab with h | ⟨h, ht⟩ <;> rcases hbc with h' | ⟨h', ht'⟩
    · exact .inl (h'.trans h)
    · exact .inl (h' ▸ h)
    · exact .inl (h ▸ h')
    · exact .inr ⟨h.trans h', Int.le_trans ht' ht⟩

/-! ## 2. The bounded pass -/

theorem insert_perm (le : α → α → Bool) (a : α) : ∀ l : List α, (insert le a l).Perm (a :: l)
  | [] => List.Perm.refl _
  | b :: r => by
      rw [insert]
      split
      · exact ((insert_perm le a r).cons b).trans (List.Perm.swap a b r)
      · exact List.Perm.refl _

theorem pairwise_insert {le : α → α → Bool} (total : ∀ a b, (le a b || le b a) = true)
    (trans : ∀ a b c, le a b = true → le b c = true → le a c = true) (a : α) : ∀ {l : List α},
    l.Pairwise (fun x y => le x y = true) →
      (insert le a l).Pairwise (fun x y => le x y = true)
  | [], _ => List.pairwise_singleton _ _
  | b :: r, h => by
      obtain ⟨hb, hr⟩ := List.pairwise_cons.mp h
      rw [insert]
      split
      · rename_i hba
        refine List.pairwise_cons.mpr ⟨fun x hx => ?_, pairwise_insert total trans a hr⟩
        rcases List.mem_cons.mp ((insert_perm le a r).mem_iff.mp hx) with rfl | hx
        · exact hba
        · exact hb x hx
      · rename_i hba
        have hab : le a b = true := by simpa [hba] using total a b
        refine List.pairwise_cons.mpr ⟨fun x hx => ?_, h⟩
        rcases List.mem_cons.mp hx with rfl | hx
        · exact hab
        · exact trans a b x hab (hb x hx)

/-- What is cut off before an insertion would be cut off after it. -/
theorem take_insert_take (le : α → α → Bool) (a : α) : ∀ (n : Nat) (l : List α),
    (insert le a (l.take n)).take n = (insert le a l).take n
  | 0, _ => by simp
  | _ + 1, [] => by simp
  | n + 1, b :: r => by
      rw [List.take_succ_cons, insert, insert]
      split
      · rw [List.take_succ_cons, List.take_succ_cons, take_insert_take le a n r]
      · rw [List.take_succ_cons, List.take_succ_cons]
        cases n with
        | zero => rfl
        | succ n => rw [List.take_succ_cons, List.take_succ_cons, List.take_take,
            Nat.min_eq_left (Nat.le_succ n)]

/-- All rows in order, by the pass that cuts nothing. -/
def inserted (le : α → α → Bool) (rows : List α) : List α :=
  rows.foldl (fun best row => insert le row best) []

theorem foldl_take_insert (le : α → α → Bool) (n : Nat) : ∀ rows best : List α,
    rows.foldl (fun best row => (insert le row best).take n) (best.take n) =
      (rows.foldl (fun best row => insert le row best) best).take n
  | [], _ => rfl
  | row :: rows, best => by
      rw [List.foldl_cons, List.foldl_cons, take_insert_take, foldl_take_insert le n rows]

theorem smallest_eq_take_inserted (le : α → α → Bool) (n : Nat) (rows : List α) :
    smallest le n rows = (inserted le rows).take n := by
  simpa [smallest, inserted] using foldl_take_insert le n rows []

theorem foldl_insert_perm (le : α → α → Bool) : ∀ rows best : List α,
    (rows.foldl (fun best row => insert le row best) best).Perm (rows ++ best)
  | [], _ => List.Perm.refl _
  | row :: rows, best => by
      have ih := foldl_insert_perm le rows (insert le row best)
      exact (ih.trans ((insert_perm le row best).append_left rows)).trans List.perm_middle

theorem pairwise_foldl_insert {le : α → α → Bool} (total : ∀ a b, (le a b || le b a) = true)
    (trans : ∀ a b c, le a b = true → le b c = true → le a c = true) : ∀ {rows best : List α},
    best.Pairwise (fun x y => le x y = true) →
      (rows.foldl (fun best row => insert le row best) best).Pairwise (fun x y => le x y = true)
  | [], _, h => h
  | row :: _, _, h => by
      rw [List.foldl_cons]
      exact pairwise_foldl_insert total trans (pairwise_insert total trans row h)

/-- Rows that have only one sorted order are cut to the same rows by the pass and by the sort. -/
theorem smallest_eq_take_mergeSort {le : α → α → Bool}
    (total : ∀ a b, (le a b || le b a) = true)
    (trans : ∀ a b c, le a b = true → le b c = true → le a c = true) {rows : List α}
    (anti : ∀ a ∈ rows, ∀ b ∈ rows, le a b = true → le b a = true → a = b) (n : Nat) :
    smallest le n rows = (rows.mergeSort le).take n := by
  have hperm : (inserted le rows).Perm rows := by
    simpa [inserted] using foldl_insert_perm le rows []
  have hsorted : (inserted le rows).Pairwise fun x y => le x y = true :=
    pairwise_foldl_insert total trans List.Pairwise.nil
  rw [smallest_eq_take_inserted]
  congr 1
  refine List.Perm.eq_of_pairwise (fun a b ha hb => ?_) hsorted
    (List.pairwise_mergeSort trans total rows) (hperm.trans (List.mergeSort_perm rows le).symm)
  exact anti a (hperm.mem_iff.mp ha) b (List.mem_mergeSort.mp hb)

/-! ## 3. A prefix of the sorted list -/

/-- Rows with the places of a list are in order in only one way. -/
theorem eq_of_zipIdxLE {le : α → α → Bool} {l : List α} {a b : α × Nat} (ha : a ∈ l.zipIdx)
    (hb : b ∈ l.zipIdx) (hab : List.zipIdxLE le a b = true) (hba : List.zipIdxLE le b a = true) :
    a = b := by
  have hplace : a.2 = b.2 := by
    unfold List.zipIdxLE at hab hba
    by_cases h : le a.1 b.1 = true
    · by_cases h' : le b.1 a.1 = true
      · simp only [h, h', if_true, decide_eq_true_eq] at hab hba
        exact Nat.le_antisymm hab hba
      · simp [h'] at hba
    · simp [h] at hab
  have hitem : some a.1 = some b.1 := by
    rw [← List.mk_mem_zipIdx_iff_getElem?.mp ha, ← List.mk_mem_zipIdx_iff_getElem?.mp hb, hplace]
  exact Prod.ext (Option.some.inj hitem) hplace

/-- The first items are those of the sorted list. -/
theorem top_eq_take_sorted (r : Ranking) (score : α → σ) (time : α → Int) (limit : Int)
    (items : List α) :
    r.top score time limit items = (r.sorted score time items).take limit.toNat := by
  unfold top
  split
  · rename_i hlimit
    rw [Int.toNat_of_nonpos hlimit, List.take_zero]
  · split
    · rename_i hlen
      rw [List.take_of_length_le]
      rw [sorted, List.length_mergeSort]
      omega
    · have htotal := List.zipIdxLE_total (le_total r score time)
      have htrans := List.zipIdxLE_trans (le_trans r score time)
      rw [smallest_eq_take_mergeSort htotal htrans fun a ha b hb => eq_of_zipIdxLE ha hb,
          List.map_take]
      congr 1
      exact List.mergeSort_zipIdx

/-- **The first results are the first of all results.** Under an order of any name, for any needle
and any scores that can be compared, a limit takes as many items as it says from the head of the
sorted list, ties as they stand there. -/
theorem top_ofName_eq_take (sortBy : String) (n : Needle) (score : α → σ) (time : α → Int)
    (limit : Int) (items : List α) :
    (ofName sortBy n).top score time limit items =
      ((ofName sortBy n).sorted score time items).take (max limit 0).toNat := by
  rw [top_eq_take_sorted]
  congr 1
  omega

/-! ## 4. The order of results -/

/-- Whether one item comes before another in the results: by its score and time as the ranking has
them, and by its place where these are equal. -/
def Before (r : Ranking) (score : α → Score) (time : α → Int) (place : α → Nat) (a b : α) : Prop :=
  match r with
  | .relevance => score b < score a ∨
      score a = score b ∧ (time b < time a ∨ time a = time b ∧ place a < place b)
  | .newest => time b < time a ∨ time a = time b ∧ place a < place b
  | .oldest => time a < time b ∨ time a = time b ∧ place a < place b

/-- No two items come before each other. -/
theorem before_asymm {r : Ranking} {score : α → Score} {time : α → Int} {place : α → Nat} {a b : α}
    (h : r.Before score time place a b) : ¬ r.Before score time place b a := by
  cases r with
  | oldest | newest =>
    simp only [Before] at *
    omega
  | relevance =>
    intro h'
    rcases h with h | ⟨h, ht⟩ <;> rcases h' with h' | ⟨h', ht'⟩
    · exact Int.lt_asymm h h'
    · exact Int.lt_irrefl _ (h' ▸ h)
    · exact Int.lt_irrefl _ (h ▸ h')
    · omega

/-- What may stand before another item and is ahead of it in a tie comes before it. -/
theorem before_of_le {r : Ranking} {score : α → Score} {time : α → Int} {place : α → Nat} {a b : α}
    (hab : r.le score time a b = true)
    (htie : r.le score time b a = true → place a < place b) :
    r.Before score time place a b := by
  cases r with
  | oldest =>
    simp only [le, decide_eq_true_eq] at hab htie
    rcases Int.lt_or_eq_of_le hab with h | h
    · exact .inl h
    · exact .inr ⟨h, htie (Int.le_of_eq h.symm)⟩
  | newest =>
    simp only [le, decide_eq_true_eq] at hab htie
    rcases Int.lt_or_eq_of_le hab with h | h
    · exact .inl h
    · exact .inr ⟨h.symm, htie (Int.le_of_eq h.symm)⟩
  | relevance =>
    simp only [le, Bool.or_eq_true, Bool.and_eq_true, decide_eq_true_eq, beq_iff_eq] at hab htie
    rcases hab with h | ⟨h, ht⟩
    · exact .inl h
    · rcases Int.lt_or_eq_of_le ht with ht | ht
      · exact .inr ⟨h, .inl ht⟩
      · exact .inr ⟨h, .inr ⟨ht.symm, htie (.inr ⟨h.symm, Int.le_of_eq ht.symm⟩)⟩⟩

/-- A stable sort decides ties by the places, if these increase in the list. -/
theorem pairwise_mergeSort_of_increasing {le : α → α → Bool}
    (total : ∀ a b, (le a b || le b a) = true)
    (trans : ∀ a b c, le a b = true → le b c = true → le a c = true) {place : α → Nat}
    {l : List α} (hl : l.Pairwise fun a b => place a < place b) :
    (l.mergeSort le).Pairwise fun a b => le a b = true ∧ (le b a = true → place a < place b) := by
  have hnodup : l.zipIdx.Nodup := by
    refine List.Nodup.of_map Prod.snd ?_
    rw [List.zipIdx_map_snd]
    exact List.nodup_range'
  have hsorted := (List.pairwise_mergeSort (List.zipIdxLE_trans trans) (List.zipIdxLE_total total)
    l.zipIdx).and ((List.mergeSort_perm l.zipIdx (List.zipIdxLE le)).nodup_iff.mpr hnodup)
  rw [← List.mergeSort_zipIdx, List.pairwise_map]
  refine hsorted.imp_of_mem fun {a b} ha hb hab => ?_
  obtain ⟨hab, hne⟩ := hab
  have ha' := List.mk_mem_zipIdx_iff_getElem?.mp (List.mem_mergeSort.mp ha)
  have hb' := List.mk_mem_zipIdx_iff_getElem?.mp (List.mem_mergeSort.mp hb)
  have hle : le a.1 b.1 = true := by
    by_contra h
    simp [List.zipIdxLE, h] at hab
  refine ⟨hle, fun hba => ?_⟩
  have hplace : a.2 ≤ b.2 := by simpa [List.zipIdxLE, hle, hba] using hab
  have hlt : a.2 < b.2 := by
    refine Nat.lt_of_le_of_ne hplace fun heq => hne ?_
    rw [heq, hb'] at ha'
    exact Prod.ext (Option.some.inj ha').symm heq
  obtain ⟨hia, ha'⟩ := List.getElem?_eq_some_iff.mp ha'
  obtain ⟨hib, hb'⟩ := List.getElem?_eq_some_iff.mp hb'
  rw [← ha', ← hb']
  exact List.pairwise_iff_getElem.mp hl a.2 b.2 hia hib hlt

/-- Places increase along a list, also where some of it is left out. -/
theorem pairwise_place_filter (p : α × Nat → Bool) (l : List α) :
    (l.zipIdx.filter p).Pairwise fun a b => a.2 < b.2 := by
  refine List.Pairwise.sublist List.filter_sublist ?_
  rw [← List.pairwise_map, List.zipIdx_map_snd]
  exact List.pairwise_lt_range'

theorem nodup_of_increasing {place : α → Nat} {l : List α}
    (h : l.Pairwise fun a b => place a < place b) : l.Nodup :=
  h.imp fun hlt heq => absurd (congrArg place heq) (Nat.ne_of_lt hlt)

theorem pairwise_before_sorted (r : Ranking) (score : α → Score) (time : α → Int) {place : α → Nat}
    {items : List α} (h : items.Pairwise fun a b => place a < place b) :
    (r.sorted score time items).Pairwise (r.Before score time place) :=
  (pairwise_mergeSort_of_increasing (le_total r score time) (le_trans r score time) h).imp
    fun h => before_of_le h.1 h.2

/-! ## 5. The best of some items -/

/-- What it means to pick the best items within a limit: as many as the limit allows, each at most
once, in order, and none left out that would come before one that is picked: those come after. -/
structure Best (before : α → α → Prop) (limit : Int) (items picked : List α) : Prop where
  length_eq : (picked.length : Int) = min (max limit 0) items.length
  nodup : picked.Nodup
  mem : ∀ a ∈ picked, a ∈ items
  ordered : picked.Pairwise before
  left_out : ∀ b ∈ items, b ∉ picked → ∀ a ∈ picked, before a b ∧ ¬ before b a

theorem best_take {before : α → α → Prop} {items list : List α} (limit : Int)
    (hasymm : ∀ {a b}, before a b → ¬ before b a) (hperm : list.Perm items)
    (hnodup : items.Nodup) (hordered : list.Pairwise before) :
    Best before limit items (list.take limit.toNat) where
  length_eq := by
    rw [List.length_take, hperm.length_eq]
    omega
  nodup := (List.take_sublist _ _).nodup (hperm.nodup_iff.mpr hnodup)
  mem := fun a ha => hperm.mem_iff.mp (List.mem_of_mem_take ha)
  ordered := hordered.sublist (List.take_sublist _ _)
  left_out := by
    intro b hb hout a ha
    rw [← hperm.mem_iff, ← List.take_append_drop limit.toNat list, List.mem_append] at hb
    rw [← List.take_append_drop limit.toNat list, List.pairwise_append] at hordered
    have hab : before a b := hordered.2.2 a ha b (hb.resolve_left hout)
    exact ⟨hab, hasymm hab⟩

end Ranking

end Recall
