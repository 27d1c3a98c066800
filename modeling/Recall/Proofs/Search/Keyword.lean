/-
Recall.Proofs.Search.Keyword — a file search answers with the best of the files that have a keyword.

The keywords of a query are the maximal runs of ASCII letters and digits in its lower case, those of
three characters or more (`areKeywords_iff`). A keyword test need not look for capitals, because no
capital is left in a text that has been lowered.

A file has two points for each hit of a keyword in its name and one for each in its text, so it has
points exactly if a keyword occurs in one of the two (`points_eq_zero_iff`). The search drops the files
without points and sorts the others. With its place in the list beside each file the sorted list is in
strict order (`pairwise_before_sorted`), and a limit takes the first of it.
-/
import Mathlib.Algebra.Order.Ring.Nat
import Recall.Proofs.Search.Ranking
import Recall.Proofs.Text.Hits
import Recall.Proofs.Text.Run
import Recall.Search.Keyword

namespace Recall

namespace Keyword

/-! ## 1. Keywords -/

/-- The keywords of a query: the maximal runs of ASCII letters and digits in its lower case that have
three characters or more, in order. -/
def AreKeywords (query : List Char) (ks : List (List Char)) : Prop :=
  ∃ runs, Chars.Runs Char.isAlphanum (Chars.lower query) runs ∧
    ks = runs.filter fun w => 3 ≤ w.length

theorem not_settled_capital : ∀ n : Fin 26, ¬ Chars.Settled (Char.ofNat (65 + n)) := by
  decide +kernel

/-- A letter that lowering leaves alone is a small one. -/
theorem isKeyChar_of_settled {c : Char} (h : Chars.Settled c) : isKeyChar c = c.isAlphanum := by
  have hcap : c.toNat < 65 ∨ 90 < c.toNat := by
    by_contra hcap
    obtain ⟨n, rfl⟩ := Chars.exists_capital hcap
    exact not_settled_capital n h
  have hupper : c.isUpper = false := by
    rw [Bool.eq_false_iff]
    intro hup
    have hrange : 65 ≤ c.val ∧ c.val ≤ 90 := of_decide_eq_true hup
    have hlo : 65 ≤ c.toNat := hrange.1
    have hhi : c.toNat ≤ 90 := hrange.2
    omega
  change isKeyChar c = ((c.isUpper || c.isLower) || c.isDigit)
  rw [hupper, Bool.false_or]
  rfl

theorem areKeywords_iff {query : List Char} {ks : List (List Char)} :
    AreKeywords query ks ↔ ks = keywords query := by
  have hsame : ∀ c ∈ Chars.lower query, isKeyChar c = c.isAlphanum := fun c hc =>
    isKeyChar_of_settled (Chars.settled_of_mem_lowerFrom hc)
  have hruns := (Chars.runs_iff.mpr rfl : Chars.Runs isKeyChar (Chars.lower query) _).congr hsame
  constructor
  · rintro ⟨runs, h, rfl⟩
    rw [h.eq_fields, ← hruns.eq_fields, keywords]
  · rintro rfl
    exact ⟨_, hruns, rfl⟩

theorem ne_nil_of_mem_keywords {query k : List Char} (h : k ∈ keywords query) : k ≠ [] :=
  Chars.ne_nil_of_mem_fields (List.mem_filter.mp h).1

/-! ## 2. Points -/

/-- A keyword occurs in the name or the text of a file. -/
def Qualifies (ks : List (List Char)) (f : LibraryFile) : Prop :=
  ∃ k ∈ ks, k <:+: Chars.lower f.name.toList ∨ k <:+: Chars.lower f.text.toList

instance (ks : List (List Char)) (f : LibraryFile) : Decidable (Qualifies ks f) :=
  List.decidableBEx _ ks

/-- The points of a file: for each keyword, as often as it was typed, two for each hit in the name and
one for each in the text. -/
def points (ks : List (List Char)) (f : LibraryFile) : Nat :=
  (ks.map fun k => 2 * (Chars.hits k (Chars.lower f.name.toList)).length +
    (Chars.hits k (Chars.lower f.text.toList)).length).sum

theorem score_eq_points (ks : List (List Char)) (f : LibraryFile) : score ks f = points ks f := by
  induction ks with
  | nil => rfl
  | cons k ks ih =>
    simp only [score, countHits, List.foldr_cons, points, List.map_cons, List.sum_cons,
      Chars.count] at ih ⊢
    omega

/-- A file has points if it qualifies. -/
theorem points_eq_zero_iff {ks : List (List Char)} (hne : ∀ k ∈ ks, k ≠ []) {f : LibraryFile} :
    points ks f = 0 ↔ ¬ Qualifies ks f := by
  simp only [points, Qualifies, List.sum_eq_zero_iff_forall_eq_nat, List.forall_mem_map, not_exists,
    not_and, not_or]
  refine forall₂_congr fun k hk => ?_
  rw [← Chars.hits_eq_nil_iff (hne k hk), ← Chars.hits_eq_nil_iff (hne k hk),
    ← List.length_eq_zero_iff, ← List.length_eq_zero_iff]
  omega

/-! ## 3. The order of files -/

/-- A file with its place in the list that is searched. -/
abbrev Row := LibraryFile × Nat

/-- The files that qualify, with their places. -/
def found (ks : List (List Char)) (files : List LibraryFile) : List Row :=
  files.zipIdx.filter fun r => Qualifies ks r.1

/-- One file comes before another: by its points, and by its place where these are equal. -/
def Before (ks : List (List Char)) (a b : Row) : Prop :=
  points ks b.1 < points ks a.1 ∨ points ks a.1 = points ks b.1 ∧ a.2 < b.2

theorem Before.asymm {ks : List (List Char)} {a b : Row} (h : Before ks a b) :
    ¬ Before ks b a := by
  simp only [Before] at *
  omega

/-- Whether a file has as many points as another, or more. -/
def atLeast (ks : List (List Char)) (a b : Row) : Bool :=
  points ks b.1 ≤ points ks a.1

theorem atLeast_total (ks : List (List Char)) (a b : Row) :
    (atLeast ks a b || atLeast ks b a) = true := by
  simpa [atLeast] using Nat.le_total (points ks b.1) (points ks a.1)

theorem atLeast_trans (ks : List (List Char)) (a b c : Row) (hab : atLeast ks a b = true)
    (hbc : atLeast ks b c = true) : atLeast ks a c = true := by
  simp only [atLeast, decide_eq_true_eq] at *
  exact Nat.le_trans hbc hab

/-- The files that qualify, in order. -/
def sorted (ks : List (List Char)) (files : List LibraryFile) : List Row :=
  (found ks files).mergeSort (atLeast ks)

theorem pairwise_before_sorted (ks : List (List Char)) (files : List LibraryFile) :
    (sorted ks files).Pairwise (Before ks) := by
  have hsorted := Ranking.pairwise_mergeSort_of_increasing (atLeast_total ks) (atLeast_trans ks)
    (Ranking.pairwise_place_filter (fun r => Qualifies ks r.1) files)
  refine hsorted.imp fun {a b} h => ?_
  simp only [atLeast, decide_eq_true_eq] at h
  simp only [Before]
  omega

/-! ## 4. The search -/

/-- What a file is found as. -/
def hitOf (ks : List (List Char)) (r : Row) : Hit :=
  ⟨r.1, points ks r.1, String.ofList (snippet ks r.1.text.toList)⟩

theorem filterMap_eq_map_found {ks : List (List Char)} (hne : ∀ k ∈ ks, k ≠ [])
    (files : List LibraryFile) :
    (files.filterMap fun f =>
      let s := score ks f
      if s = 0 then none else some ⟨f, s, String.ofList (snippet ks f.text.toList)⟩) =
      (found ks files).map (hitOf ks) := by
  conv_lhs => rw [← List.zipIdx_map_fst 0 files, List.filterMap_map]
  rw [found, ← List.filterMap_eq_map, List.filterMap_filter]
  refine List.filterMap_congr fun r _ => ?_
  have hzero := points_eq_zero_iff hne (f := r.1)
  by_cases hq : Qualifies ks r.1
  · have hpoints : points ks r.1 ≠ 0 := fun h => hzero.mp h hq
    simp [score_eq_points, hitOf, hq, hpoints]
  · simp [score_eq_points, hq, hzero.mpr hq]

/-- A search answers with the first of the files that qualify, in order. -/
theorem search_eq (files : List LibraryFile) (query : String) (limit : Int) :
    search files query limit = ((sorted (keywords query.toList) files).take limit.toNat).map
      (hitOf (keywords query.toList)) := by
  have hsort : (sorted (keywords query.toList) files).map (hitOf (keywords query.toList)) =
      ((found (keywords query.toList) files).map (hitOf (keywords query.toList))).mergeSort
        fun a b => b.score ≤ a.score :=
    List.map_mergeSort fun _ _ _ _ => rfl
  rw [List.map_take, hsort, ← filterMap_eq_map_found fun k hk => ne_nil_of_mem_keywords hk]
  rfl

/-- **A file search answers with the best of the files that have a keyword.** The keywords are the
maximal runs of ASCII letters and digits of three characters or more in the lowered query, and what is
counted of each are the occurrences that one finds by taking the first one and going on behind it. For
every limit the results are the best of the files in whose name or text a keyword occurs: by their
points, and by their place in the list where these are equal. So a larger limit only adds results at the
end. -/
theorem search_best_files (files : List LibraryFile) (query : String) (limit : Int) :
    (∀ ks, AreKeywords query.toList ks ↔ ks = keywords query.toList) ∧
    (∀ k ∈ keywords query.toList, ∀ cs is, Chars.Leftmost k cs 0 is ↔ is = Chars.hits k cs) ∧
    (∃ rows, Ranking.Best (Before (keywords query.toList)) limit
        (found (keywords query.toList) files) rows ∧
      (search files query limit).map (fun h => (h.file, h.score)) =
        rows.map fun r => (r.1, points (keywords query.toList) r.1)) ∧
    ∀ limit' : Int, limit ≤ limit' → search files query limit <+: search files query limit' := by
  refine ⟨fun ks => areKeywords_iff,
    fun k hk cs is => Chars.leftmost_iff (ne_nil_of_mem_keywords hk),
    ⟨(sorted (keywords query.toList) files).take limit.toNat, ?_, ?_⟩, fun limit' hle => ?_⟩
  · exact Ranking.best_take limit Before.asymm (List.mergeSort_perm _ _)
      (Ranking.nodup_of_increasing (Ranking.pairwise_place_filter _ files))
      (pairwise_before_sorted _ _)
  · rw [search_eq, List.map_map]
    rfl
  · rw [search_eq, search_eq]
    exact (List.take_prefix_take_left (Int.toNat_le_toNat hle)).map _

end Keyword

end Recall
