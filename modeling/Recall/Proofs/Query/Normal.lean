/-
Recall.Proofs.Query.Normal — the normal form of a free text.

The needle of a free text has the lowered text, collapsed, for its phrase (`phrase_ofText`). Lowering a
second time changes nothing, because it leaves only characters behind that it does not touch; nor does
collapsing; and neither undoes the other, because each blank is lowered to itself and separates what is
lowered on both sides. So the needle of the phrase is the needle again (`ofText_phrase`).

What needles of free texts look like is said without reading any text (`Normal`): the phrase is tidy and
its own lower case, and the words are those of the phrase in the order in which they first occur, which
leaves no choice of words. These are all the needles that free texts have (`exists_ofText_eq_iff`).
-/
import Recall.Proofs.Query.Needle
import Recall.Proofs.Text.Spacing

namespace Recall

namespace Text

theorem words_lower_collapse (s : String) : words (lower (collapse s)) = words (lower s) := by
  simp only [words, toList_lower, toList_collapse, Chars.words_lower, Chars.words_collapse]

theorem words_lower_eq_nil_iff {s : String} : words (lower s) = [] ↔ isBlank s = true := by
  rw [words, List.map_eq_nil_iff, toList_lower, Chars.words_lower, List.map_eq_nil_iff,
    Chars.words_eq_nil_iff, isBlank]

end Text

namespace Needle

/-! ## 1. The needle of a free text -/

theorem phrase_ofText (raw : String) : (ofText raw).phrase = Text.collapse (Text.lower raw) := by
  rw [ofText, Text.join, Text.map_toList_words]
  rfl

theorem ofText_collapse (raw : String) : ofText (Text.collapse raw) = ofText raw := by
  unfold ofText
  rw [Text.words_lower_collapse]

theorem words_ofText (raw : String) :
    (ofText raw).words = Text.distinct (Text.words (Text.lower raw)) := by
  rw [ofText]

theorem mem_words_ofText {raw w : String} :
    w ∈ (ofText raw).words ↔ w ∈ Text.words (Text.lower raw) := by
  rw [words_ofText, Text.mem_distinct]

theorem ofText_lower (raw : String) : ofText (Text.lower raw) = ofText raw := by
  unfold ofText
  rw [Text.lower_lower]

/-- The phrase asks for what the text asks for. -/
theorem ofText_phrase (raw : String) : ofText (ofText raw).phrase = ofText raw := by
  rw [phrase_ofText, ofText_collapse, ofText_lower]

theorem words_ofText_eq_nil_iff {raw : String} :
    (ofText raw).words = [] ↔ Text.isBlank raw = true := by
  rw [← Text.words_lower_eq_nil_iff, words_ofText]
  cases Text.words (Text.lower raw) <;> simp [Text.distinct]

theorem phrase_ofText_eq_empty_iff {raw : String} :
    (ofText raw).phrase = "" ↔ Text.isBlank raw = true := by
  rw [← Text.words_lower_eq_nil_iff]
  constructor
  · intro h
    rw [← (spelled_ofText raw).words_phrase, h]
    rfl
  · intro h
    rw [ofText, h]
    rfl

/-! ## 2. Normal needles -/

/-- A phrase in lower case with single spaces, and its distinct words in the order in which they first
occur. -/
structure Normal (n : Needle) : Prop where
  tidy : Chars.Tidy n.phrase.toList
  lower : Text.lower n.phrase = n.phrase
  words : Text.Firsts (Text.words n.phrase) n.words

theorem normal_ofText (raw : String) : (ofText raw).Normal where
  tidy := by
    rw [phrase_ofText, Text.toList_collapse]
    exact Chars.tidy_iff.mpr (Chars.collapse_collapse _)
  lower := by
    apply String.toList_injective
    rw [phrase_ofText]
    simp only [Text.toList_lower, Text.toList_collapse, ← Chars.collapse_lower, Chars.lower_lower]
  words := by
    rw [(spelled_ofText raw).words_phrase, words_ofText]
    exact Text.firsts_distinct _

theorem eq_of_parts {m n : Needle} (hphrase : m.phrase = n.phrase) (hwords : m.words = n.words) :
    m = n := by
  cases m
  cases n
  exact congrArg₂ mk hphrase hwords

/-- A normal needle is the needle of its phrase. -/
theorem ofText_of_normal {n : Needle} (h : n.Normal) : ofText n.phrase = n := by
  have hphrase : (ofText n.phrase).phrase = n.phrase := by
    apply String.toList_injective
    rw [phrase_ofText, Text.toList_collapse, h.lower]
    exact Chars.tidy_iff.mp h.tidy
  have hwords : (ofText n.phrase).words = n.words := by
    have hfirsts := (normal_ofText n.phrase).words
    rw [hphrase] at hfirsts
    exact hfirsts.eq h.words
  exact eq_of_parts hphrase hwords

theorem exists_ofText_eq_iff {n : Needle} : (∃ raw, ofText raw = n) ↔ n.Normal := by
  constructor
  · rintro ⟨raw, rfl⟩
    exact normal_ofText raw
  · intro h
    exact ⟨_, ofText_of_normal h⟩

/-- **The normal form of a free text.** Reading the phrase of a needle gives the needle again. The phrase
is in lower case and has no blanks at its ends, no two in a row and none but spaces, and the words are
its distinct words in the order in which they first occur; every such needle is read from some text. There
are no words exactly where the phrase is empty, and that is where the text is blank. -/
theorem ofText_normalizes :
    (∀ raw : String, ofText (ofText raw).phrase = ofText raw ∧
      Chars.Tidy (ofText raw).phrase.toList ∧
      Text.Firsts (Text.words (ofText raw).phrase) (ofText raw).words ∧
      ((ofText raw).words = [] ↔ (ofText raw).phrase = "") ∧
      ((ofText raw).phrase = "" ↔ Text.isBlank raw = true)) ∧
    ∀ n : Needle, (∃ raw, ofText raw = n) ↔ n.Normal := by
  refine ⟨fun raw => ?_, fun n => exists_ofText_eq_iff⟩
  have hnormal := normal_ofText raw
  exact ⟨ofText_phrase raw, hnormal.tidy, hnormal.words,
    words_ofText_eq_nil_iff.trans phrase_ofText_eq_empty_iff.symm, phrase_ofText_eq_empty_iff⟩

end Needle

end Recall
