/-
Recall.Proofs.Search.Words — a query of words asks for a set of words.

A text matches a needle when it has the phrase, or else when it has every word. The phrase is made of
the words, so a text that has it has every word as well, and asking for the phrase first changes
nothing (`matchesLowered_ofText_iff`). Two free texts with the same set of words therefore keep the
same entries, whatever else is asked for (`words_decide`).

A query typed without quotes and operators is its own free text: it is read as the words of the text
(`parse_of_isFree`), and a needle does not see how its words are spaced (`ofText_collapse`).
-/
import Mathlib.Data.Finset.Dedup
import Recall.Proofs.Query.Normal
import Recall.Proofs.Query.Range
import Recall.Search.Filter

namespace Recall

/-! ## 1. Texts with the same words -/

namespace Text

/-- Two texts have the same words in lower case, in whatever order and however often. -/
def SameWords (s t : String) : Prop :=
  (words (lower s)).toFinset = (words (lower t)).toFinset

instance (s t : String) : Decidable (SameWords s t) :=
  inferInstanceAs (Decidable (_ = _))

theorem SameWords.mem_iff {s t : String} (h : SameWords s t) (w : String) :
    w ∈ words (lower s) ↔ w ∈ words (lower t) := by
  rw [← List.mem_toFinset, h, List.mem_toFinset]

end Text

/-! ## 2. What a needle of words asks for -/

namespace Needle

/-- A needle of words is found where every word is. A text without words has the empty phrase, which
is found everywhere. -/
theorem matchesLowered_ofText_iff (raw c : String) :
    (ofText raw).matchesLowered c = true ↔
      ∀ w ∈ (ofText raw).words, Text.occursIn w c = true := by
  have hspelled := spelled_ofText raw
  rw [matchesLowered, Bool.or_eq_true, Bool.and_eq_true, List.all_eq_true]
  constructor
  · rintro (hphrase | ⟨-, hwords⟩)
    · intro w hw
      exact hspelled.occursIn_of_phrase hphrase (hspelled.mem hw)
    · exact hwords
  · intro h
    cases hws : Text.words (Text.lower raw) with
    | nil =>
      have hphrase : (ofText raw).phrase = "" := by
        rw [hspelled.phrase, hws, Text.join_nil]
      left
      rw [hphrase]
      exact Text.occursIn_empty c
    | cons w ws =>
      have hmem : w ∈ (ofText raw).words := by
        rw [mem_words_ofText, hws]
        exact List.mem_cons_self
      right
      exact ⟨by simpa using List.ne_nil_of_mem hmem, h⟩

theorem matchesLowered_congr {raw raw' : String} (h : Text.SameWords raw raw') (c : String) :
    (ofText raw).matchesLowered c = (ofText raw').matchesLowered c := by
  rw [Bool.eq_iff_iff, matchesLowered_ofText_iff, matchesLowered_ofText_iff]
  simp only [mem_words_ofText, h.mem_iff]

/-- Asking for the phrase alone asks for more. -/
theorem matchesLowered_of_phraseOnly {n : Needle} {c : String}
    (h : n.phraseOnly.matchesLowered c = true) : n.matchesLowered c = true := by
  have hphrase : Text.occursIn n.phrase c = true := by
    simpa [matchesLowered, phraseOnly] using h
  rw [matchesLowered, hphrase, Bool.true_or]

end Needle

/-! ## 3. Queries of words -/

namespace Query

/-- A query without quotes in which no word is an operator. -/
def IsFree (raw : String) : Prop :=
  '"' ∉ raw.toList ∧ ∀ w ∈ Text.words raw, Term.operator? w.toList = none

instance (raw : String) : Decidable (IsFree raw) :=
  inferInstanceAs (Decidable (_ ∧ _))

theorem terms_of_isFree {raw : String} (h : IsFree raw) :
    terms raw = (Text.words raw).map .word := by
  have htokens : Token.tokens raw = Text.words raw := by
    rw [Token.tokens, Token.split_unquoted h.1, Text.words]
  rw [terms, htokens]
  refine List.map_congr_left ?_
  intro w hw
  rw [Term.ofToken, h.2 w hw, Option.getD_none]

/-- A query of words is its own free text. -/
theorem parse_of_isFree {raw : String} (h : IsFree raw) :
    parse raw = { text := Text.collapse raw, needle := .ofText raw } := by
  have hword : Term.word? ∘ Term.word = some := rfl
  have htext : textOf ((Text.words raw).map .word) = Text.collapse raw := by
    rw [textOf, List.filterMap_map, hword, List.filterMap_some, Text.join, Text.map_toList_words]
    rfl
  simp only [parse, terms_of_isFree h, htext, Operators.ofTerms_words, Needle.ofText_collapse,
    Option.getD_none, Bool.false_eq_true, if_false]

/-- Where a query does not say which, the default decides between the phrase alone and words. -/
theorem parse_verbatim {raw : String} (h : (parse raw).operators.verbatim = none) :
    parse raw true = { parse raw false with needle := (parse raw false).needle.phraseOnly } := by
  rw [operators_parse] at h
  simp only [parse, h, Option.getD_none, Bool.false_eq_true, if_true, if_false]

end Query

/-! ## 4. What is kept -/

namespace Entry

/-- An entry is accepted when it is found and all but the free text of the query accepts it. -/
theorem accepted_iff_found (e : Entry) (q : Query) (window : String) (now : Int) :
    e.accepted q window now = true ↔
      e.accepted { q with needle := {} } window now = true ∧
        q.needle.matchesLowered e.combined = true := by
  simp only [accepted, Needle.matchesLowered_empty, Bool.and_true, Bool.and_eq_true]
  constructor
  · rintro ⟨⟨⟨⟨⟨hrest, hfound⟩, hspace⟩, htags⟩, hfacets⟩, hstates⟩
    exact ⟨⟨⟨⟨⟨hrest, hspace⟩, htags⟩, hfacets⟩, hstates⟩, hfound⟩
  · rintro ⟨⟨⟨⟨⟨hrest, hspace⟩, htags⟩, hfacets⟩, hstates⟩, hfound⟩
    exact ⟨⟨⟨⟨⟨hrest, hfound⟩, hspace⟩, htags⟩, hfacets⟩, hstates⟩

theorem filter_congr_sameWords {raw raw' : String} (h : Text.SameWords raw raw') (q : Query)
    (window : String) (now : Int) (entries : List Entry) :
    filter { q with needle := .ofText raw } window now entries =
      filter { q with needle := .ofText raw' } window now entries := by
  refine List.filter_congr ?_
  intro e _
  rw [Bool.eq_iff_iff, accepted_iff_found, accepted_iff_found e { q with needle := .ofText raw' }]
  simp only [Needle.matchesLowered_congr h]

theorem filter_phraseOnly_sublist (q : Query) (window : String) (now : Int)
    (entries : List Entry) :
    (filter { q with needle := q.needle.phraseOnly } window now entries).Sublist
      (filter q window now entries) := by
  refine List.monotone_filter_right entries ?_
  intro e h
  rw [accepted_iff_found] at h ⊢
  exact ⟨h.1, Needle.matchesLowered_of_phraseOnly h.2⟩

/-- **The set of words decides.** A needle of words is found in a text exactly where each of its words
is; so is the needle of a text without words, which is found everywhere. So two free texts with the
same words keep the same entries, next to any operators, and so do two queries typed from these words
alone. Where a query does not say whether its phrase alone counts, asking for the phrase alone keeps
nothing that is not kept otherwise. -/
theorem words_decide :
    (∀ raw c : String, (Needle.ofText raw).matchesLowered c = true ↔
      ∀ w ∈ (Needle.ofText raw).words, Text.occursIn w c = true) ∧
    (∀ raw raw' : String, Text.SameWords raw raw' →
      ∀ (q : Query) (window : String) (now : Int) (entries : List Entry),
        filter { q with needle := .ofText raw } window now entries =
          filter { q with needle := .ofText raw' } window now entries) ∧
    (∀ raw raw' : String, Query.IsFree raw → Query.IsFree raw' → Text.SameWords raw raw' →
      ∀ (window : String) (now : Int) (entries : List Entry),
        filter (Query.parse raw) window now entries =
          filter (Query.parse raw') window now entries) ∧
    ∀ raw : String, (Query.parse raw).operators.verbatim = none →
      ∀ (window : String) (now : Int) (entries : List Entry),
        (filter (Query.parse raw true) window now entries).Sublist
          (filter (Query.parse raw false) window now entries) := by
  refine ⟨Needle.matchesLowered_ofText_iff, fun _ _ => filter_congr_sameWords, ?_, ?_⟩
  · intro raw raw' hraw hraw' h window now entries
    rw [Query.parse_of_isFree hraw, Query.parse_of_isFree hraw']
    exact filter_congr_sameWords h {} window now entries
  · intro raw h window now entries
    rw [Query.parse_verbatim h]
    exact filter_phraseOnly_sublist _ window now entries

/-- A file whose name is what is typed, and a collection whose name has the same words in another
order, with more around them. -/
def streetEntries : List Entry :=
  [ofFile { id := "f1", name := "Plan ΟΔΟΣ" }, ofCollection { id := "c1", name := "ΟΔΟΣ: all plans" }]

theorem words_decide_streetEntries :
    Text.SameWords "Plan  ΟΔΟΣ plan" "οδος\nPLAN" ∧
      (Query.parse "Plan ΟΔΟΣ").operators.verbatim = none ∧
      (Needle.ofText " \n").matchesLowered "" = true ∧
      filter { needle := .ofText "Plan  ΟΔΟΣ plan" } "all" 0 streetEntries =
        filter { needle := .ofText "οδος\nPLAN" } "all" 0 streetEntries ∧
      filter (Query.parse "Plan  ΟΔΟΣ plan") "all" 0 streetEntries =
        filter (Query.parse "οδος\nPLAN") "all" 0 streetEntries ∧
      filter (Query.parse "οδος\nPLAN") "all" 0 streetEntries = streetEntries ∧
      (filter (Query.parse "Plan ΟΔΟΣ" true) "all" 0 streetEntries).Sublist
        (filter (Query.parse "Plan ΟΔΟΣ" false) "all" 0 streetEntries) ∧
      filter (Query.parse "Plan ΟΔΟΣ" true) "all" 0 streetEntries = streetEntries.take 1 := by
  have hwords : Text.SameWords "Plan  ΟΔΟΣ plan" "οδος\nPLAN" := by decide +kernel
  have hnone : (Query.parse "Plan ΟΔΟΣ").operators.verbatim = none := by decide +kernel
  refine ⟨hwords, hnone, ?_, ?_, ?_, by decide +kernel, ?_, by decide +kernel⟩
  · exact (words_decide.1 _ _).mpr (by decide +kernel)
  · exact words_decide.2.1 _ _ hwords {} "all" 0 _
  · exact words_decide.2.2.1 _ _ (by decide +kernel) (by decide +kernel) hwords "all" 0 _
  · exact words_decide.2.2.2 _ hnone "all" 0 _

end Entry

end Recall
