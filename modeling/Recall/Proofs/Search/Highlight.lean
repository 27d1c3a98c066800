/-
Recall.Proofs.Search.Highlight — the parts of a highlighted text.

A text is cut at the ends of stretches that are apart (`Span.Apart`). What comes of it depends on
nothing else: the parts make up the text again, none of them is empty, they are marked and unmarked in
turn, and the characters that are marked are those at the positions that the stretches cover
(`toList_cut`, `ne_empty_of_mem_cut`, `alternate_cut`, `marks_cut`). Each of these is an induction on
the stretches with the position where the rest of the text begins left general; the gap between two
stretches is what keeps the parts from being empty and two marked parts from standing side by side.

The stretches of a text to mark are apart (`apart_spans`), and what they cover is what the hits of the
patterns take up (`covered_spans`). Hits are occurrences, and every occurrence begins in a hit. The two
main statements follow: `parts_partition` on the text as a whole, and `marks_matches` on the characters
that are marked.
-/
import Mathlib.Data.List.Chain
import Recall.Proofs.Search.Span
import Recall.Proofs.Text.Hits

namespace Recall

namespace Highlight

/-! ## 1. Cutting -/

/-- Whether each character of the parts is marked. -/
def marks (ps : List Part) : List Bool :=
  ps.flatMap fun p => p.text.toList.map fun _ => p.marked

/-- Neighbours are marked and unmarked in turn. -/
def Alternate (ps : List Part) : Prop :=
  ps.IsChain fun p q => p.marked ≠ q.marked

instance (ps : List Part) : Decidable (Alternate ps) :=
  inferInstanceAs (Decidable (ps.IsChain fun p q => p.marked ≠ q.marked))

theorem drop_take_append_drop (cs : List Char) {a b : Nat} (hab : a ≤ b) (hb : b ≤ cs.length) :
    (cs.take b).drop a ++ cs.drop b = cs.drop a := by
  have hlen : a ≤ (cs.take b).length := by
    rw [List.length_take]
    omega
  rw [← List.drop_append_of_le_length hlen, List.take_append_drop]

theorem drop_take_ne_nil {cs : List Char} {a b : Nat} (hab : a < b) (hb : b ≤ cs.length) :
    String.ofList ((cs.take b).drop a) ≠ "" := by
  intro hnil
  have hlen : ((cs.take b).drop a).length = 0 := by
    rw [← String.toList_ofList (l := (cs.take b).drop a), hnil]
    rfl
  rw [List.length_drop, List.length_take] at hlen
  omega

section Cut

variable {cs : List Char}

/-- The stretches lie one behind the other in what is left of the text from a position on. -/
def Ahead (cs : List Char) (pos : Nat) (spans : List Span) : Prop :=
  Span.Apart cs.length spans ∧ ∀ s ∈ spans, pos ≤ s.start

theorem Ahead.cons {pos : Nat} {s : Span} {r : List Span} (h : Ahead cs pos (s :: r)) :
    pos ≤ s.start ∧ s.start < s.stop ∧ s.stop ≤ cs.length ∧ Ahead cs s.stop r ∧
      ∀ t ∈ r, s.stop < t.start := by
  obtain ⟨⟨hinside, hgaps⟩, hpos⟩ := h
  obtain ⟨hs, hr⟩ := Span.Inside.cons_iff.mp hinside
  obtain ⟨hbehind, hrest⟩ := List.pairwise_cons.mp hgaps
  refine ⟨hpos s List.mem_cons_self, hs.1, hs.2, ⟨⟨hr, hrest⟩, ?_⟩, hbehind⟩
  exact fun t ht => Nat.le_of_lt (hbehind t ht)

/-- The parts make up what is left of the text. -/
theorem toList_cut : ∀ {spans : List Span} {pos : Nat}, Ahead cs pos spans →
    (cut cs pos spans).flatMap (fun p => p.text.toList) = cs.drop pos
  | [], pos, _ => by
      unfold cut
      split
      · simp
      · rename_i hend
        simp only [List.flatMap_nil]
        exact (List.drop_eq_nil_iff.mpr (Nat.le_of_not_lt hend)).symm
  | s :: r, pos, h => by
      obtain ⟨hpos, hlong, hend, hr, -⟩ := h.cons
      have ih := toList_cut hr
      have hbehind := drop_take_append_drop cs (Nat.le_of_lt hlong) hend
      simp only [cut]
      split
      · simp only [List.flatMap_cons, String.toList_ofList, ih, hbehind]
        exact drop_take_append_drop cs hpos (by omega)
      · have heq : pos = s.start := by omega
        simp only [List.flatMap_cons, String.toList_ofList, ih, hbehind, heq]

theorem ne_empty_of_mem_cut {p : Part} : ∀ {spans : List Span} {pos : Nat}, Ahead cs pos spans →
    p ∈ cut cs pos spans → p.text ≠ ""
  | [], pos, _, hp => by
      unfold cut at hp
      split at hp
      · rename_i hpos
        rw [List.mem_singleton.mp hp, ← List.take_length (l := cs)]
        exact drop_take_ne_nil hpos (by simp)
      · cases hp
  | s :: r, pos, h, hp => by
      obtain ⟨-, hlong, hend, hr, -⟩ := h.cons
      have hmarked : ∀ q, q ∈ (⟨String.ofList ((cs.take s.stop).drop s.start), true⟩ : Part) ::
          cut cs s.stop r → q.text ≠ "" := by
        intro q hq
        rcases List.mem_cons.mp hq with rfl | hq
        · exact drop_take_ne_nil hlong hend
        · exact ne_empty_of_mem_cut hr hq
      simp only [cut] at hp
      split at hp
      · rename_i hpos
        rcases List.mem_cons.mp hp with rfl | hp
        · exact drop_take_ne_nil hpos (by omega)
        · exact hmarked p hp
      · exact hmarked p hp

/-- Where no stretch begins at once, the first part is unmarked. -/
theorem marked_head?_cut {spans : List Span} {pos : Nat} (h : ∀ s ∈ spans, pos < s.start) :
    ∀ p ∈ (cut cs pos spans).head?, p.marked = false := by
  intro p hp
  cases spans with
  | nil =>
    unfold cut at hp
    split at hp
    · simp only [List.head?_cons, Option.mem_def, Option.some.injEq] at hp
      simp [← hp]
    · cases hp
  | cons s r =>
    simp only [cut, if_pos (h s List.mem_cons_self), List.head?_cons, Option.mem_def,
      Option.some.injEq] at hp
    simp [← hp]

theorem alternate_cut : ∀ {spans : List Span} {pos : Nat}, Ahead cs pos spans →
    Alternate (cut cs pos spans)
  | [], pos, _ => by
      unfold cut Alternate
      split <;> simp
  | s :: r, pos, h => by
      obtain ⟨-, -, -, hr, hgap⟩ := h.cons
      have hmarked : Alternate
          (⟨String.ofList ((cs.take s.stop).drop s.start), true⟩ :: cut cs s.stop r) := by
        refine List.isChain_cons.mpr ⟨?_, alternate_cut hr⟩
        intro p hp
        simp [marked_head?_cut hgap p hp]
      simp only [cut]
      split
      · exact List.isChain_cons_cons.mpr ⟨by simp, hmarked⟩
      · exact hmarked

/-- The marks of a part are equal. -/
theorem marks_cons_drop_take {a b : Nat} (hb : b ≤ cs.length) (marked : Bool) (ps : List Part) :
    marks (⟨String.ofList ((cs.take b).drop a), marked⟩ :: ps) =
      List.replicate (b - a) marked ++ marks ps := by
  simp [marks, Nat.min_eq_left hb]

/-- A run of positions with one answer. -/
theorem map_range'_eq_replicate {P : Nat → Bool} {a b : Nat} {v : Bool}
    (h : ∀ i, a ≤ i → i < b → P i = v) :
    (List.range' a (b - a)).map P = List.replicate (b - a) v := by
  refine List.eq_replicate_iff.mpr ⟨by simp, ?_⟩
  intro x hx
  obtain ⟨i, hi, rfl⟩ := List.mem_map.mp hx
  rw [List.mem_range'_1] at hi
  exact h i hi.1 (by omega)

theorem range'_split {a b c : Nat} (hab : a ≤ b) (hbc : b ≤ c) :
    List.range' a (c - a) = List.range' a (b - a) ++ List.range' b (c - b) := by
  have hsum : c - a = b - a + (c - b) := by omega
  have hmid : a + (b - a) = b := by omega
  rw [hsum, ← List.range'_append_1, hmid]

/-- The positions before the first stretch, in it, and behind it. -/
theorem map_covered_cons {n pos : Nat} {s : Span} {r : List Span} (hpos : pos ≤ s.start)
    (hlong : s.start < s.stop) (hend : s.stop ≤ n) (hgap : ∀ t ∈ r, s.stop < t.start) :
    (List.range' pos (n - pos)).map (fun i => decide (Span.Covered (s :: r) i)) =
      List.replicate (s.start - pos) false ++ (List.replicate (s.stop - s.start) true ++
        (List.range' s.stop (n - s.stop)).map fun i => decide (Span.Covered r i)) := by
  have hbefore : (List.range' pos (s.start - pos)).map
      (fun i => decide (Span.Covered (s :: r) i)) = List.replicate (s.start - pos) false := by
    refine map_range'_eq_replicate ?_
    intro i _ hi
    refine decide_eq_false ?_
    rintro ⟨t, ht, hti⟩
    rcases List.mem_cons.mp ht with rfl | ht
    · omega
    · have := hgap t ht
      omega
  have hin : (List.range' s.start (s.stop - s.start)).map
      (fun i => decide (Span.Covered (s :: r) i)) = List.replicate (s.stop - s.start) true := by
    refine map_range'_eq_replicate ?_
    intro i hi hlt
    simp [hi, hlt]
  have hbehind : (List.range' s.stop (n - s.stop)).map
      (fun i => decide (Span.Covered (s :: r) i)) =
        (List.range' s.stop (n - s.stop)).map fun i => decide (Span.Covered r i) := by
    refine List.map_congr_left ?_
    intro i hi
    have hge : s.stop ≤ i := (List.mem_range'_1.mp hi).1
    simp [Nat.not_lt.mpr hge]
  rw [range'_split hpos (Nat.le_trans (Nat.le_of_lt hlong) hend),
    range'_split (Nat.le_of_lt hlong) hend, List.map_append, List.map_append, hbefore, hin, hbehind]

/-- A character that is left is marked when the stretches cover its position. -/
theorem marks_cut : ∀ {spans : List Span} {pos : Nat}, Ahead cs pos spans →
    marks (cut cs pos spans) =
      (List.range' pos (cs.length - pos)).map fun i => decide (Span.Covered spans i)
  | [], pos, _ => by
      have hnone : (List.range' pos (cs.length - pos)).map
          (fun i => decide (Span.Covered [] i)) = List.replicate (cs.length - pos) false :=
        map_range'_eq_replicate (by simp)
      rw [hnone]
      unfold cut
      split
      · simp [marks]
      · rename_i hend
        simp [marks, Nat.sub_eq_zero_of_le (Nat.le_of_not_lt hend)]
  | s :: r, pos, h => by
      obtain ⟨hpos, hlong, hend, hr, hgap⟩ := h.cons
      rw [map_covered_cons hpos hlong hend hgap, ← marks_cut hr]
      simp only [cut]
      split
      · rw [marks_cons_drop_take (by omega), marks_cons_drop_take hend]
      · have hnone : s.start - pos = 0 := by omega
        rw [marks_cons_drop_take hend, hnone, List.replicate_zero, List.nil_append]

end Cut

/-! ## 2. Patterns -/

theorem mem_patterns {query p : List Char} {words : List (List Char)} :
    p ∈ patterns query words ↔
      p ≠ [] ∧ (p = query ∨ 2 ≤ query.length ∧ p ∈ words ∧ 2 ≤ p.length) := by
  simp only [patterns, List.mem_mergeSort, Text.mem_distinct, List.mem_filter, List.mem_cons,
    Bool.not_eq_true', List.isEmpty_eq_false_iff, and_comm (a := p ≠ [])]
  split
  · rename_i hlong
    simp [hlong]
  · rename_i hshort
    simp [hshort]

theorem nodup_patterns (query : List Char) (words : List (List Char)) :
    (patterns query words).Nodup :=
  (List.mergeSort_perm _ _).nodup_iff.mpr (Text.nodup_distinct _)

/-- The same words make the same patterns, though those of one length may change places. -/
theorem patterns_perm {query : List Char} {words words' : List (List Char)}
    (h : ∀ w, w ∈ words ↔ w ∈ words') : (patterns query words).Perm (patterns query words') := by
  refine (List.perm_ext_iff_of_nodup (nodup_patterns _ _) (nodup_patterns _ _)).mpr ?_
  intro p
  simp only [mem_patterns, h]

/-! ## 3. The stretches to mark -/

theorem inside_flatMap_spansOf (cs : List Char) {ps : List (List Char)} (h : [] ∉ ps) :
    Span.Inside cs.length (ps.flatMap (spansOf cs)) := by
  intro s hs
  obtain ⟨p, hp, hs⟩ := List.mem_flatMap.mp hs
  obtain ⟨i, hi, rfl⟩ := List.mem_map.mp hs
  have hne : p ≠ [] := by
    rintro rfl
    exact h hp
  have hpos : 0 < p.length := List.length_pos_iff.mpr hne
  exact ⟨by simpa using hpos, (Chars.occursAt_of_mem_hits hi).add_length_le hne⟩

theorem apart_spans (text query : List Char) (words : List (List Char)) :
    Span.Apart text.length (spans text query words) := by
  simp only [spans]
  split
  · rename_i hlen
    rw [← hlen]
    refine Span.apart_merge (inside_flatMap_spansOf _ ?_)
    exact fun hnil => (mem_patterns.mp hnil).1 rfl
  · exact ⟨by simp [Span.Inside], List.Pairwise.nil⟩

/-- The parts are cut from the text at its beginning. -/
theorem ahead_spans (text query : List Char) (words : List (List Char)) :
    Ahead text 0 (spans text query words) :=
  ⟨apart_spans text query words, fun s _ => Nat.zero_le s.start⟩

/-- The hits of the patterns are what is covered. -/
theorem covered_spans {text query : List Char} {words : List (List Char)}
    (hlen : (Chars.lower text).length = text.length) {i : Nat} :
    Span.Covered (spans text query words) i ↔ ∃ p ∈ patterns query words,
      ∃ j ∈ Chars.hits p (Chars.lower text), j ≤ i ∧ i < j + p.length := by
  simp only [spans, if_pos hlen, Span.covered_merge]
  constructor
  · rintro ⟨s, hs, hi⟩
    obtain ⟨p, hp, hs⟩ := List.mem_flatMap.mp hs
    obtain ⟨j, hj, rfl⟩ := List.mem_map.mp hs
    exact ⟨p, hp, j, hj, hi⟩
  · rintro ⟨p, hp, j, hj, hi⟩
    exact ⟨_, List.mem_flatMap.mpr ⟨p, hp, List.mem_map.mpr ⟨j, hj, rfl⟩⟩, hi⟩

theorem spans_congr {text query : List Char} {words words' : List (List Char)}
    (h : ∀ w, w ∈ words ↔ w ∈ words') : spans text query words = spans text query words' := by
  simp only [spans]
  rw [Span.merge_perm ((patterns_perm h).flatMap_right _)]

/-! ## 4. The parts of a text -/

/-- **Highlighting partitions a text.** The parts make up the text, none is empty, and they are marked
and unmarked in turn. Of the words only counts which there are, and not in which order or how often. -/
theorem parts_partition (text query : String) (words : List String) :
    String.join ((parts text query words).map Part.text) = text ∧
    (∀ p ∈ parts text query words, p.text ≠ "") ∧
    Alternate (parts text query words) ∧
    ∀ words', (∀ w, w ∈ words' ↔ w ∈ words) → parts text query words' = parts text query words := by
  have hahead : ∀ q ws, Ahead text.toList 0 (spans text.toList q ws) := ahead_spans text.toList
  refine ⟨?_, fun p hp => ne_empty_of_mem_cut (hahead _ _) hp, alternate_cut (hahead _ _), ?_⟩
  · apply String.toList_injective
    rw [String.toList_join, List.flatMap_map]
    exact toList_cut (hahead _ _)
  · intro words' h
    have hwords : ∀ w, w ∈ (words'.filter fun w => !Text.isBlank w).map prepared ↔
        w ∈ (words.filter fun w => !Text.isBlank w).map prepared := by
      intro w
      simp only [List.mem_map, List.mem_filter, h]
    simp only [parts]
    rw [spans_congr hwords]

/-- Overlapping words, one of them twice and in another place. -/
theorem parts_partition_bananas :
    (∀ w, w ∈ ["ANA", "nan", "ANA"] ↔ w ∈ ["nan", "ANA"]) ∧
      parts "Bananas! BAN" "ban" ["ANA", "nan", "ANA"] =
        parts "Bananas! BAN" "ban" ["nan", "ANA"] := by
  obtain ⟨-, -, -, hwords⟩ := parts_partition "Bananas! BAN" "ban" ["nan", "ANA"]
  have hsame : ∀ w, w ∈ ["ANA", "nan", "ANA"] ↔ w ∈ ["nan", "ANA"] := by
    intro w
    simp [or_comm]
  exact ⟨hsame, hwords _ hsame⟩

/-! ## 5. The characters that are marked -/

/-- What is looked for: the query, and words of two characters or more if the query has so many. -/
def IsPattern (query : String) (words : List String) (p : List Char) : Prop :=
  p = prepared query ∨
    2 ≤ (prepared query).length ∧ (∃ w ∈ words, p = prepared w) ∧ 2 ≤ p.length

theorem prepared_eq_nil_iff {s : String} : prepared s = [] ↔ Text.isBlank s = true := by
  rw [prepared, Chars.lower_eq_nil_iff, Chars.trim_eq_nil_iff, Text.isBlank]

/-- Blank words are left out before they could be patterns, and they would be too short for it. -/
theorem mem_patterns_iff {query : String} (hquery : Text.isBlank query = false) {words : List String}
    {p : List Char} :
    p ∈ patterns (prepared query) ((words.filter fun w => !Text.isBlank w).map prepared) ↔
      IsPattern query words p := by
  have hne : prepared query ≠ [] := by
    intro hnil
    simp [prepared_eq_nil_iff.mp hnil] at hquery
  rw [mem_patterns, IsPattern]
  constructor
  · rintro ⟨-, rfl | ⟨hlong, hp, hplen⟩⟩
    · exact .inl rfl
    · obtain ⟨w, hw, rfl⟩ := List.mem_map.mp hp
      exact .inr ⟨hlong, ⟨w, (List.mem_filter.mp hw).1, rfl⟩, hplen⟩
  · rintro (rfl | ⟨hlong, ⟨w, hw, rfl⟩, hplen⟩)
    · exact ⟨hne, .inl rfl⟩
    · have hnil : prepared w ≠ [] := by
        intro hnil
        simp [hnil] at hplen
      have hblank : Text.isBlank w = false := by
        simpa [prepared_eq_nil_iff] using hnil
      refine ⟨hnil, .inr ⟨hlong, ?_, hplen⟩⟩
      exact List.mem_map.mpr ⟨w, List.mem_filter.mpr ⟨hw, by simp [hblank]⟩, rfl⟩

theorem IsPattern.ne_nil {query : String} (hquery : Text.isBlank query = false) {words : List String}
    {p : List Char} (h : IsPattern query words p) : p ≠ [] :=
  (mem_patterns.mp ((mem_patterns_iff hquery).mpr h)).1

/-- The character at a position is marked when a hit of a pattern covers it. -/
theorem marks_parts_eq_some_iff {text query : String} {words : List String}
    (hlen : (Text.lower text).length = text.length) (hquery : Text.isBlank query = false) {i : Nat} :
    (marks (parts text query words))[i]? = some true ↔
      ∃ p, IsPattern query words p ∧
        ∃ j ∈ Chars.hits p (Text.lower text).toList, j ≤ i ∧ i < j + p.length := by
  have hlower : (Chars.lower text.toList).length = text.toList.length := by
    simpa [← String.length_toList] using hlen
  have hbound : ∀ {p j}, IsPattern query words p → j ∈ Chars.hits p (Chars.lower text.toList) →
      j + p.length ≤ text.toList.length := by
    intro p j hp hj
    rw [← hlower]
    exact (Chars.occursAt_of_mem_hits hj).add_length_le (hp.ne_nil hquery)
  rw [parts, marks_cut (ahead_spans _ _ _)]
  simp only [Nat.sub_zero, List.getElem?_map, Option.map_eq_some_iff, decide_eq_true_eq,
    covered_spans hlower, mem_patterns_iff hquery, Text.toList_lower]
  constructor
  · rintro ⟨k, hk, hcovered⟩
    obtain rfl : k = i := by
      have hrange := List.getElem?_eq_some_iff.mp hk
      simpa using hrange.2.symm
    exact hcovered
  · rintro ⟨p, hp, j, hj, hji, hij⟩
    have hi : i < text.toList.length := Nat.lt_of_lt_of_le hij (hbound hp hj)
    have hrange : (List.range' 0 text.toList.length)[i]? = some i := by
      rw [List.getElem?_range' hi, Nat.zero_add, Nat.one_mul]
    exact ⟨i, hrange, p, hp, j, hj, hji, hij⟩

/-- A part is marked when a character is. -/
theorem exists_marked_iff {ps : List Part} (hne : ∀ p ∈ ps, p.text ≠ "") :
    (∃ p ∈ ps, p.marked = true) ↔ ∃ i : Nat, (marks ps)[i]? = some true := by
  rw [← List.mem_iff_getElem?]
  simp only [marks, List.mem_flatMap, List.mem_map]
  constructor
  · rintro ⟨p, hp, hmarked⟩
    obtain ⟨c, hc⟩ : ∃ c, c ∈ p.text.toList :=
      List.exists_mem_of_ne_nil _ fun hnil => hne p hp (String.toList_eq_nil_iff.mp hnil)
    exact ⟨p, hp, c, hc, hmarked⟩
  · rintro ⟨p, hp, c, -, hmarked⟩
    exact ⟨p, hp, hmarked⟩

/-- **What is marked is what matches.** Let a text be as long as its lower case, and let the query not
be blank. Every marked character is in an occurrence of a pattern in the lower case of the text, and the
first character of every occurrence is marked, also where occurrences overlap; so a part is marked if and
only if a pattern occurs. Equal length is enough for the places to agree: every character of the text is
lowered to one character, and that stands at the same place. -/
theorem marks_matches {text query : String} (words : List String)
    (hlen : (Text.lower text).length = text.length) (hquery : Text.isBlank query = false) :
    (∀ i, (marks (parts text query words))[i]? = some true → ∃ p j, IsPattern query words p ∧
      Chars.OccursAt p (Text.lower text).toList j ∧ j ≤ i ∧ i < j + p.length) ∧
    (∀ p j, IsPattern query words p → Chars.OccursAt p (Text.lower text).toList j →
      (marks (parts text query words))[j]? = some true) ∧
    ((∃ part ∈ parts text query words, part.marked = true) ↔
      ∃ p, IsPattern query words p ∧ Chars.occursIn p (Text.lower text).toList = true) ∧
    ∀ as c bs, text.toList = as ++ c :: bs →
      ∃ d, Chars.lowerChar (as.foldl Chars.endsCased false) c bs = [d] ∧
        (Text.lower text).toList[as.length]? = some d := by
  have hinside : ∀ i, (marks (parts text query words))[i]? = some true → ∃ p j,
      IsPattern query words p ∧ Chars.OccursAt p (Text.lower text).toList j ∧ j ≤ i ∧
        i < j + p.length := by
    intro i hi
    obtain ⟨p, hp, j, hj, hji, hij⟩ := (marks_parts_eq_some_iff hlen hquery).mp hi
    exact ⟨p, j, hp, Chars.occursAt_of_mem_hits hj, hji, hij⟩
  have hfirst : ∀ p j, IsPattern query words p → Chars.OccursAt p (Text.lower text).toList j →
      (marks (parts text query words))[j]? = some true := by
    intro p j hp hj
    exact (marks_parts_eq_some_iff hlen hquery).mpr
      ⟨p, hp, Chars.exists_hit_of_occursAt (hp.ne_nil hquery) hj⟩
  refine ⟨hinside, hfirst, ?_, ?_⟩
  · have hne : ∀ p ∈ parts text query words, p.text ≠ "" := fun p hp =>
      ne_empty_of_mem_cut (ahead_spans _ _ _) hp
    rw [exists_marked_iff hne]
    constructor
    · rintro ⟨i, hi⟩
      obtain ⟨p, j, hp, hj, -⟩ := hinside i hi
      exact ⟨p, hp, Chars.occursIn_iff_exists_occursAt.mpr ⟨j, hj⟩⟩
    · rintro ⟨p, hp, hoccurs⟩
      obtain ⟨j, hj⟩ := Chars.occursIn_iff_exists_occursAt.mp hoccurs
      exact ⟨j, hfirst p j hp hj⟩
  · intro as c bs heq
    rw [Text.toList_lower, heq]
    refine Chars.getElem?_lower ?_
    rw [← heq]
    simpa [← String.length_toList] using hlen

/-- Of two occurrences that overlap the second is passed over, and its first character is marked all the
same; what stands before them is not. -/
theorem marks_matches_overlap :
    (Text.lower "BANANAS").length = "BANANAS".length ∧ Text.isBlank " Ana " = false ∧
      Chars.OccursAt (prepared " Ana ") (Text.lower "BANANAS").toList 1 ∧
      Chars.OccursAt (prepared " Ana ") (Text.lower "BANANAS").toList 3 ∧
      Chars.hits (prepared " Ana ") (Text.lower "BANANAS").toList = [1] ∧
      (marks (parts "BANANAS" " Ana " []))[3]? = some true ∧
      (marks (parts "BANANAS" " Ana " []))[0]? ≠ some true := by
  have hlen : (Text.lower "BANANAS").length = "BANANAS".length := by decide +kernel
  have hquery : Text.isBlank " Ana " = false := by decide +kernel
  have hthird : Chars.OccursAt (prepared " Ana ") (Text.lower "BANANAS").toList 3 := by
    decide +kernel
  obtain ⟨hinside, hfirst, -⟩ := marks_matches [] hlen hquery
  refine ⟨hlen, hquery, by decide +kernel, hthird, by decide +kernel,
    hfirst _ 3 (.inl rfl) hthird, ?_⟩
  intro hzero
  obtain ⟨p, j, hp, hj, hle, -⟩ := hinside 0 hzero
  obtain rfl : j = 0 := Nat.le_zero.mp hle
  obtain rfl : p = prepared " Ana " := by simpa [IsPattern] using hp
  revert hj
  decide +kernel

end Highlight

end Recall
