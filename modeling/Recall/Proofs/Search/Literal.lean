/-
Recall.Proofs.Search.Literal — what stands in a text is found in it.

A query without quotes and colons is taken at its word. It is found in every text it stands in, up to
two things that its needle does not have from the text around it:

* the needle is lowered by itself, and a capital sigma that is final there need not be final in the
  text. Wherever the sigmas are as in the query (`Chars.KeepsSigmas`), the query is lowered to what it
  is lowered to in the text;
* the phrase has single spaces, whatever the text has. The words are found all the same, but a query
  for the phrase alone is found in itself exactly when it is spaced (`matchesParts_phraseOnly_self_iff`).
-/
import Recall.Proofs.Search.Words
import Recall.Proofs.Text.Spacing

namespace Recall

namespace Needle

/-! ## 1. A needle and one text -/

theorem combine_singleton (p : String) : combine [some p] = Text.lower p := by
  by_cases hp : p = ""
  · rw [hp]
    rfl
  · have hfilter : (some p).filter (fun s => s != "") = some p := by simp [hp]
    rw [combine, List.filterMap_cons, hfilter, List.filterMap_nil, Text.join_singleton]

/-- The words of a text are found where its lower case stands. -/
theorem matchesParts_ofText {raw p : String}
    (h : Chars.lower raw.toList <:+: Chars.lower p.toList) :
    (ofText raw).matchesParts [some p] = true := by
  rw [matchesParts, combine_singleton, matchesLowered_ofText_iff]
  intro w hw
  obtain ⟨cs, hcs, rfl⟩ := List.mem_map.mp (mem_words_ofText.mp hw)
  rw [Text.toList_lower] at hcs
  rw [Text.occursIn_iff, String.toList_ofList, Text.toList_lower]
  exact (Chars.infix_of_mem_words hcs).trans h

theorem matchesParts_phraseOnly_iff {raw p : String} :
    (ofText raw).phraseOnly.matchesParts [some p] = true ↔
      Chars.collapse (Chars.lower raw.toList) <:+: Chars.lower p.toList := by
  rw [matchesParts, combine_singleton, matchesLowered]
  simp only [phraseOnly, List.isEmpty_nil, Bool.not_true, Bool.false_and, Bool.or_false,
    phrase_ofText, Text.occursIn_iff, Text.toList_collapse, Text.toList_lower]

/-- A text has its own phrase exactly when it is spaced. -/
theorem matchesParts_phraseOnly_self_iff {raw : String} :
    (ofText raw).phraseOnly.matchesParts [some raw] = true ↔ Chars.Spaced raw.toList := by
  rw [matchesParts_phraseOnly_iff, Chars.collapse_infix_iff, Chars.spaced_lower_iff]

theorem matchesParts_phraseOnly {raw p : String} (hspaced : Chars.Spaced raw.toList)
    (h : Chars.lower raw.toList <:+: Chars.lower p.toList) :
    (ofText raw).phraseOnly.matchesParts [some p] = true :=
  matchesParts_phraseOnly_iff.mpr
    ((Chars.collapse_infix_iff.mpr (Chars.spaced_lower_iff.mpr hspaced)).trans h)

end Needle

namespace Query

/-! ## 2. Queries taken at their word -/

theorem isFree_of_notMem {raw : String} (hcolon : ':' ∉ raw.toList) (hquote : '"' ∉ raw.toList) :
    IsFree raw := by
  refine ⟨hquote, fun w hw => Term.operator?_eq_none fun hmem => ?_⟩
  obtain ⟨cs, hcs, rfl⟩ := List.mem_map.mp hw
  rw [String.toList_ofList] at hmem
  exact hcolon ((Chars.infix_of_mem_words hcs).subset hmem)

theorem needle_parse_of_isFree {raw : String} (h : IsFree raw) :
    (parse raw false).needle = .ofText raw ∧
      (parse raw true).needle = (Needle.ofText raw).phraseOnly := by
  have hparse := parse_of_isFree h
  have hnone : (parse raw).operators.verbatim = none := by rw [hparse]
  refine ⟨by rw [hparse], ?_⟩
  rw [parse_verbatim hnone, hparse]

/-- **Search finds what is literally there.** A query without colons and quotes is found wherever it
stands in a text, if there its capital sigmas are at the end of a word just as in the query. They are
if there are none, or if the query stands between blanks or the ends of the text. When the phrase alone
counts the words of the query must be spaced as in the phrase, by single spaces; and for the query
itself as the text, that is all there is to it. -/
theorem literal_found :
    (∀ a r b : String, ':' ∉ r.toList → '"' ∉ r.toList →
      Chars.KeepsSigmas a.toList r.toList b.toList →
        (parse r false).needle.matchesParts [some (a ++ r ++ b)] = true ∧
        (Chars.Spaced r.toList →
          (parse r true).needle.matchesParts [some (a ++ r ++ b)] = true)) ∧
    (∀ as m bs : List Char, 'Σ' ∉ m ∨ Chars.StandsFree as bs → Chars.KeepsSigmas as m bs) ∧
    ∀ r : String, ':' ∉ r.toList → '"' ∉ r.toList →
      ((parse r true).needle.matchesParts [some r] = true ↔ Chars.Spaced r.toList) := by
  refine ⟨?_, ?_, ?_⟩
  · intro a r b hcolon hquote hsigmas
    obtain ⟨hwords, hphrase⟩ := needle_parse_of_isFree (isFree_of_notMem hcolon hquote)
    have hinfix : Chars.lower r.toList <:+: Chars.lower (a ++ r ++ b).toList := by
      rw [String.toList_append, String.toList_append]
      exact Chars.lower_infix_of_keepsSigmas hsigmas
    rw [hwords, hphrase]
    exact ⟨Needle.matchesParts_ofText hinfix,
      fun hspaced => Needle.matchesParts_phraseOnly hspaced hinfix⟩
  · rintro as m bs (hnone | hfree)
    · exact Chars.keepsSigmas_of_not_mem hnone as bs
    · exact Chars.keepsSigmas_of_standsFree hfree m
  · intro r hcolon hquote
    rw [(needle_parse_of_isFree (isFree_of_notMem hcolon hquote)).2]
    exact Needle.matchesParts_phraseOnly_self_iff

/-- A query whose last sigma is final is found in the middle of a text. A tab between words makes the
phrase another, but not the words. -/
theorem literal_found_sigma :
    (parse "ΣΑΣ ΟΔΟΣ" true).needle.matchesParts [some "ΑΣ (ΣΑΣ ΟΔΟΣ)"] = true ∧
      (parse "ΣΑΣ\tΟΔΟΣ" false).needle.matchesParts [some "ΑΣ (ΣΑΣ\tΟΔΟΣ)"] = true ∧
      (parse "ΣΑΣ\tΟΔΟΣ" true).needle.matchesParts [some "ΣΑΣ\tΟΔΟΣ"] = false := by
  refine ⟨?_, ?_, ?_⟩
  · exact (literal_found.1 "ΑΣ (" "ΣΑΣ ΟΔΟΣ" ")" (by decide) (by decide)
      (by decide +kernel)).2 (by decide +kernel)
  · exact (literal_found.1 "ΑΣ (" "ΣΑΣ\tΟΔΟΣ" ")" (by decide) (by decide)
      (by decide +kernel)).1
  · rw [← Bool.not_eq_true, literal_found.2.2 "ΣΑΣ\tΟΔΟΣ" (by decide) (by decide)]
    decide +kernel

/-- The two spaces of the query stand in the text, but not in the phrase. The sigma of the query is
final and the one in the text is not. -/
theorem literal_missed :
    (Text.occursIn "deep  work" "deep  work" = true ∧ Text.isBlank "deep  work" = false ∧
      ':' ∉ "deep  work".toList ∧ '"' ∉ "deep  work".toList ∧
      (parse "deep  work" true).needle.matchesParts [some "deep  work"] = false) ∧
    Text.occursIn "ΟΔΟΣ" "ΟΔΟΣΑΣ" = true ∧ Text.isBlank "ΟΔΟΣ" = false ∧
      ':' ∉ "ΟΔΟΣ".toList ∧ '"' ∉ "ΟΔΟΣ".toList ∧
      ∀ verbatim : Bool,
        (parse "ΟΔΟΣ" verbatim).needle.matchesParts [some "ΟΔΟΣΑΣ"] = false := by
  decide +kernel

end Query

end Recall
