/-
Recall.Proofs.Query.Needle — what the needle of a query is made of, and where it is found.

A needle that was read from a query is *spelled* by words: they have no blanks, single spaces
between them make the phrase, and they are what is looked for one by one, unless the query asks for
the phrase alone (`spelled_parse`). So neither the phrase nor a word has a line break, and what they
are found in are the parts of a record one by one, although it is their combined text that is
searched (`matchesLowered_combine`).
-/
import Recall.Proofs.Text.Occurs
import Recall.Query.Basic

namespace Recall

namespace Needle

/-! ## 1. Words -/

/-- What a needle is made of. -/
structure Spelled (n : Needle) (ws : List String) : Prop where
  word : ∀ w ∈ ws, Chars.IsWord w.toList
  phrase : n.phrase = Text.join " " ws
  words : n.words = [] ∨ n.words = Text.distinct ws

theorem spelled_ofText (raw : String) : (ofText raw).Spelled (Text.words (Text.lower raw)) where
  word w hw := by
    obtain ⟨cs, hcs, rfl⟩ := List.mem_map.mp hw
    rw [String.toList_ofList]
    exact Chars.isWord_of_mem_words hcs
  phrase := rfl
  words := .inr (by rw [ofText])

theorem Spelled.phraseOnly {n : Needle} {ws : List String} (h : n.Spelled ws) :
    n.phraseOnly.Spelled ws :=
  ⟨h.word, h.phrase, .inl rfl⟩

theorem spelled_parse (raw : String) (verbatim : Bool) :
    ∃ ws, (Query.parse raw verbatim).needle.Spelled ws := by
  simp only [Query.parse]
  split
  · exact ⟨_, (spelled_ofText _).phraseOnly⟩
  · exact ⟨_, spelled_ofText _⟩

namespace Spelled

variable {n : Needle} {ws : List String}

theorem mem (h : n.Spelled ws) {w : String} (hw : w ∈ n.words) : w ∈ ws := by
  rcases h.words with hnil | hall
  · rw [hnil] at hw
    cases hw
  · rw [hall] at hw
    exact Text.mem_distinct.mp hw

theorem ne_empty (h : n.Spelled ws) {w : String} (hw : w ∈ n.words) : w ≠ "" :=
  fun heq => (h.word w (h.mem hw)).1 (String.toList_eq_nil_iff.mpr heq)

/-- The phrase is cut into the words again. -/
theorem words_phrase (h : n.Spelled ws) : Text.words n.phrase = ws := by
  have hwords : Chars.words (Chars.join [' '] (ws.map String.toList)) = ws.map String.toList := by
    refine Chars.words_join fun cs hcs => ?_
    obtain ⟨w, hw, rfl⟩ := List.mem_map.mp hcs
    exact h.word w hw
  have hid : String.ofList ∘ String.toList = id := funext fun _ => String.ofList_toList
  rw [Text.words, h.phrase, Text.toList_join]
  change (Chars.words (Chars.join [' '] _)).map String.ofList = ws
  rw [hwords, List.map_map, hid, List.map_id]

/-- A phrase of one word is the only word. -/
theorem eq_phrase_of_length (h : n.Spelled ws) (hone : (Text.words n.phrase).length = 1)
    {w : String} (hw : w ∈ n.words) : w = n.phrase := by
  rw [h.words_phrase] at hone
  obtain ⟨v, rfl⟩ := List.length_eq_one_iff.mp hone
  rw [h.phrase, Text.join_singleton]
  exact List.mem_singleton.mp (h.mem hw)

theorem notMem_word (h : n.Spelled ws) {w : String} (hw : w ∈ ws) {c : Char}
    (hc : Chars.isBlank c = true) : c ∉ w.toList := by
  intro hmem
  rw [(h.word w hw).2 c hmem] at hc
  cases hc

/-- A space is the only blank of the phrase. -/
theorem notMem_phrase (h : n.Spelled ws) {c : Char} (hc : Chars.isBlank c = true) (hne : c ≠ ' ') :
    c ∉ n.phrase.toList := by
  intro hmem
  rw [h.phrase, Text.toList_join] at hmem
  rcases Chars.mem_join hmem with hspace | ⟨cs, hcs, hmem⟩
  · exact hne (List.mem_singleton.mp hspace)
  · obtain ⟨w, hw, rfl⟩ := List.mem_map.mp hcs
    exact h.notMem_word hw hc hmem

/-- Where the phrase is, every word is. -/
theorem occursIn_of_phrase (h : n.Spelled ws) {t : String}
    (ht : Text.occursIn n.phrase t = true) {w : String} (hw : w ∈ ws) :
    Text.occursIn w t = true := by
  rw [Text.occursIn_iff] at ht ⊢
  rw [h.phrase, Text.toList_join] at ht
  exact (Chars.infix_join_of_mem (List.mem_map_of_mem hw)).trans ht

end Spelled

/-- What asks for nothing is found everywhere. -/
theorem matchesLowered_empty (c : String) : ({} : Needle).matchesLowered c = true := by
  rw [matchesLowered, Text.occursIn_empty, Bool.true_or]

/-! ## 2. Parts -/

/-- What lacks a line break occurs in the combined text when it occurs in the lower case of a
part. -/
theorem occursIn_combine {s : String} (hne : s ≠ "") (h : '\n' ∉ s.toList)
    (parts : List (Option String)) :
    Text.occursIn s (combine parts) = true ↔
      ∃ p, some p ∈ parts ∧ Text.occursIn s (Text.lower p) = true := by
  refine (Text.occursIn_lower_join Chars.separates_newline hne h).trans ?_
  simp only [List.mem_filterMap, Option.filter_eq_some_iff, bne_iff_ne]
  constructor
  · rintro ⟨p, ⟨q, hq, rfl, -⟩, hp⟩
    exact ⟨p, hq, hp⟩
  · rintro ⟨p, hmem, hp⟩
    exact ⟨p, ⟨some p, hmem, rfl, Text.ne_empty_of_occursIn_lower hne hp⟩, hp⟩

/-- A needle is found in the combined text of parts when one part has the phrase, or when it has
words and each of them is in one part or another. -/
theorem matchesLowered_combine {n : Needle} {ws : List String} (h : n.Spelled ws)
    (hne : n.phrase ≠ "") (parts : List (Option String)) :
    n.matchesLowered (combine parts) = true ↔
      (∃ p, some p ∈ parts ∧ Text.occursIn n.phrase (Text.lower p) = true) ∨
        (n.words ≠ [] ∧
          ∀ w ∈ n.words, ∃ p, some p ∈ parts ∧ Text.occursIn w (Text.lower p) = true) := by
  have hphrase := occursIn_combine hne (h.notMem_phrase (by decide) (by decide)) parts
  have hword : ∀ w ∈ n.words, (Text.occursIn w (combine parts) = true ↔
      ∃ p, some p ∈ parts ∧ Text.occursIn w (Text.lower p) = true) := fun w hw =>
    occursIn_combine (h.ne_empty hw) (h.notMem_word (h.mem hw) (by decide)) parts
  rw [matchesLowered, Bool.or_eq_true, hphrase, Bool.and_eq_true, List.all_eq_true,
    Bool.not_eq_true', List.isEmpty_eq_false_iff]
  exact or_congr_right (and_congr_right fun _ => forall₂_congr hword)

/-- **Matching stays within a part.** The needle of a query that was typed, and that asks for
something, is found in text parts when a single part has the phrase in its lower case, or when it has
words and each of them is in the lower case of one part or another. -/
theorem matchesParts_parse_iff (raw : String) (verbatim : Bool) (parts : List (Option String))
    (hne : (Query.parse raw verbatim).needle.phrase ≠ "") :
    (Query.parse raw verbatim).needle.matchesParts parts = true ↔
      (∃ p, some p ∈ parts ∧ p ≠ "" ∧
        Text.occursIn (Query.parse raw verbatim).needle.phrase (Text.lower p) = true) ∨
      ((Query.parse raw verbatim).needle.words ≠ [] ∧
        ∀ w ∈ (Query.parse raw verbatim).needle.words, ∃ p, some p ∈ parts ∧ p ≠ "" ∧
          Text.occursIn w (Text.lower p) = true) := by
  obtain ⟨ws, hspelled⟩ := spelled_parse raw verbatim
  have hpart : ∀ {s : String}, s ≠ "" →
      ((∃ p, some p ∈ parts ∧ p ≠ "" ∧ Text.occursIn s (Text.lower p) = true) ↔
        ∃ p, some p ∈ parts ∧ Text.occursIn s (Text.lower p) = true) := by
    intro s hs
    refine exists_congr fun p => and_congr_right fun _ => ?_
    exact and_iff_right_of_imp (Text.ne_empty_of_occursIn_lower hs)
  rw [matchesParts, matchesLowered_combine hspelled hne, hpart hne]
  refine or_congr_right (and_congr_right fun _ => forall₂_congr fun w hw => ?_)
  exact (hpart (hspelled.ne_empty hw)).symm

/-- Two words in two parts are found. A phrase that begins in one part and ends in the next is not,
although the two are neighbours in the combined text. -/
theorem matchesParts_parse_iff_sigma :
    ((Query.parse "plan οδος").needle.phrase ≠ "" ∧
      (Query.parse "plan οδος").needle.matchesParts
        [some "ΟΔΟΣ", none, some "", some "Σ plan"] = true) ∧
    (Query.parse "οδος σ" true).needle.phrase ≠ "" ∧
      (Query.parse "οδος σ" true).needle.matchesParts
        [some "ΟΔΟΣ", none, some "", some "Σ plan"] = false := by
  have hwords : (Query.parse "plan οδος").needle = ⟨"plan οδος", ["plan", "οδος"]⟩ := by
    decide +kernel
  have hphrase : (Query.parse "οδος σ" true).needle = ⟨"οδος σ", []⟩ := by decide +kernel
  have hne : (Query.parse "plan οδος").needle.phrase ≠ "" := by
    rw [hwords]
    decide
  have hne' : (Query.parse "οδος σ" true).needle.phrase ≠ "" := by
    rw [hphrase]
    decide
  refine ⟨⟨hne, ?_⟩, hne', ?_⟩
  · rw [matchesParts_parse_iff _ _ _ hne, hwords]
    refine .inr ⟨by simp, ?_⟩
    rw [List.forall_mem_cons, List.forall_mem_singleton]
    exact ⟨⟨"Σ plan", by decide +kernel⟩, "ΟΔΟΣ", by decide +kernel⟩
  · rw [← Bool.not_eq_true, matchesParts_parse_iff _ _ _ hne', hphrase]
    rintro (⟨p, hp, -, hocc⟩ | ⟨hnil, -⟩)
    · have hparts : p = "ΟΔΟΣ" ∨ p = "" ∨ p = "Σ plan" := by simpa using hp
      rcases hparts with rfl | rfl | rfl <;> revert hocc <;> decide +kernel
    · exact hnil rfl

end Needle

end Recall
