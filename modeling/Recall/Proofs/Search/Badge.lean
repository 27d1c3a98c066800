/-
Recall.Proofs.Search.Badge — badges explain the score of a thread.

Badge and score look at the same texts of a thread, with two differences. The question earns a badge
only when there is no title, but it always scores. And tags earn their badge one by one, but score
joined by spaces: a phrase may lie across several tags (`touches_join`). With words to look for that
makes no difference, since a word of the phrase is then in one of the tags.

`score_pos_iff_explained` says that there is no other difference.
-/
import Recall.Proofs.Search.Agreement

namespace Recall

namespace Needle

/-! ## 1. Optional and joined texts -/

theorem touches_empty (n : Needle) : n.touches "" = false := rfl

theorem touches?_eq (n : Needle) (o : Option String) : n.touches? o = n.touches (o.getD "") := by
  cases o with
  | none => exact (touches_empty n).symm
  | some s => rfl

/-- A phrase that lies across several texts, and in none of them. -/
def Straddles (n : Needle) (ts : List String) : Prop :=
  Text.occursIn n.phrase (Text.lower (Text.join " " ts)) = true ∧
    ∀ t ∈ ts, Text.occursIn n.phrase (Text.lower t) = false

instance (n : Needle) (ts : List String) : Decidable (n.Straddles ts) :=
  inferInstanceAs (Decidable (_ ∧ _))

/-- Joined texts are touched when one of them is, or when there is nothing but a phrase to look for
and it lies across them. -/
theorem touches_join {n : Needle} {ws : List String} (h : n.Spelled ws) (hne : n.phrase ≠ "")
    (ts : List String) :
    n.touches (Text.join " " ts) = true ↔
      (∃ t ∈ ts, n.touches t = true) ∨ (n.words = [] ∧ n.Straddles ts) := by
  have hsplit : ∀ w ∈ n.words, Text.occursIn w (Text.lower (Text.join " " ts)) = true →
      ∃ t ∈ ts, n.touches t = true := by
    intro w hw hoccurs
    obtain ⟨t, ht, hword⟩ := (Text.occursIn_lower_join Chars.separates_space (h.ne_empty hw)
      (h.notMem_word (h.mem hw) (by decide))).mp hoccurs
    exact ⟨t, ht, (touches_iff h hne t).mpr (.inr ⟨w, hw, hword⟩)⟩
  rw [touches_iff h hne]
  constructor
  · rintro (hphrase | ⟨w, hw, hoccurs⟩)
    · by_cases hone : ∃ t ∈ ts, n.touches t = true
      · exact .inl hone
      · refine .inr ⟨?_, hphrase, fun t ht => ?_⟩
        · -- A word would be wherever the phrase is, and then in one of the texts.
          by_contra hwords
          obtain ⟨w, hw⟩ := List.exists_mem_of_ne_nil _ hwords
          exact hone (hsplit w hw (h.occursIn_of_phrase hphrase (h.mem hw)))
        · by_contra hoccurs
          exact hone ⟨t, ht, (touches_iff h hne t).mpr (.inl (Bool.not_eq_false _ ▸ hoccurs))⟩
    · exact .inl (hsplit w hw hoccurs)
  · rintro (⟨t, ht, htouch⟩ | ⟨-, hphrase, -⟩)
    · rcases (touches_iff h hne t).mp htouch with hphrase | ⟨w, hw, hword⟩
      · exact .inl (Text.occursIn_lower_join_of_mem Chars.separates_space ht hphrase)
      · exact .inr ⟨w, hw, Text.occursIn_lower_join_of_mem Chars.separates_space ht hword⟩
    · exact .inl hphrase

end Needle

namespace Badge

/-! ## 2. Badges -/

theorem mem_all (b : Badge) : b ∈ all := by
  cases b <;> decide

/-- A thread has a badge when it earns one. -/
theorem ofFacets_ne_nil_iff {n : Needle} {f : Facets} :
    ofFacets n f ≠ [] ↔ ∃ b, earned n f b = true := by
  simp only [ofFacets, ne_eq, List.filter_eq_nil_iff, mem_all, true_imp_iff, not_forall, not_not]

/-- The texts that earn badges, one after the other. -/
theorem ofFacets_ne_nil_iff_touches {n : Needle} {f : Facets} :
    ofFacets n f ≠ [] ↔
      n.touches (f.title.getD "") = true ∨
      (f.title.getD "" = "" ∧ n.touches f.question = true) ∨
      (∃ t ∈ f.tags, n.touches t = true) ∨ n.touches (f.spaceName.getD "") = true ∨
      n.touches (f.note.getD "") = true ∨ n.touches f.citationText = true ∨
      n.touches f.answer = true := by
  have hcases : ∀ p : Badge → Prop, (∃ b, p b) ↔
      p .title ∨ p .question ∨ p .tag ∨ p .space ∨ p .note ∨ p .citation ∨ p .answer := by
    intro p
    constructor
    · rintro ⟨b, hb⟩
      cases b <;> tauto
    · rintro (h | h | h | h | h | h | h) <;> exact ⟨_, h⟩
  rw [ofFacets_ne_nil_iff, hcases]
  simp only [earned, Needle.touches?_eq, Bool.and_eq_true, beq_iff_eq, List.any_eq_true]

/-! ## 3. Scores -/

/-- The texts of a thread that score, one after the other. -/
theorem score_ofThread_pos_iff {n : Needle} (hne : n.phrase ≠ "") (t : Thread)
    (note : Option String) :
    0 < Score.ofLowered n (Entry.ofThread t note).fields ↔
      n.touches (t.title.getD "") = true ∨ n.touches t.question = true ∨
      n.touches (Text.join " " t.tags) = true ∨ n.touches (t.spaceName.getD "") = true ∨
      n.touches (Text.trim (note.getD "")) = true ∨
      n.touches (citationText t.citations) = true ∨ n.touches t.answer = true := by
  refine (Score.ofLowered_pos_iff hne ?_).trans ?_
  · simp only [List.forall_mem_cons]
    decide
  · simp only [List.mem_cons, List.not_mem_nil, or_false, exists_eq_or_imp, exists_eq_left]

/-- The facets of a thread's entry, and how its badges and its score differ. -/
theorem exists_facets_ofThread {n : Needle} {ws : List String} (h : n.Spelled ws)
    (hne : n.phrase ≠ "") (t : Thread) (note : Option String) :
    ∃ f, (Entry.ofThread t note).facets? = some f ∧
      (0 < Score.ofLowered n (Entry.ofThread t note).fields ↔
        ofFacets n f ≠ [] ∨ (t.title.getD "" ≠ "" ∧ n.touches t.question = true) ∨
          (n.words = [] ∧ n.Straddles t.tags)) := by
  refine ⟨_, rfl, ?_⟩
  have hnote : ∀ s : String, (if s = "" then none else some s).getD "" = s := by
    intro s
    split
    · rename_i hs
      exact hs.symm
    · rfl
  rw [score_ofThread_pos_iff hne, ofFacets_ne_nil_iff_touches, Needle.touches_join h hne]
  simp only [hnote]
  by_cases htitle : t.title.getD "" = ""
  · simp only [htitle, ne_eq, not_true_eq_false, true_and, false_and, false_or]
    exact Iff.of_eq (by ac_rfl)
  · simp only [htitle, ne_eq, not_false_eq_true, true_and, false_and, false_or]
    exact Iff.of_eq (by ac_rfl)

/-- **Badges explain the score.** A thread scores for a query with free text exactly when it has a
badge, or its title hides the question that was touched, or the query asks for the phrase alone and
that lies across its tags. So a thread without a title that a query with words keeps has a badge. -/
theorem score_pos_iff_explained (raw : String) (verbatim : Bool) (t : Thread)
    (note : Option String) :
    let q := Query.parse raw verbatim
    let e := Entry.ofThread t note
    q.needle.phrase ≠ "" →
      ∃ f, e.facets? = some f ∧
        (0 < Score.ofLowered q.needle e.fields ↔
          ofFacets q.needle f ≠ [] ∨
          (t.title.getD "" ≠ "" ∧
            (Text.occursIn q.needle.phrase (Text.lower t.question) = true ∨
              ∃ w ∈ q.needle.words, Text.occursIn w (Text.lower t.question) = true)) ∨
          (q.needle.words = [] ∧ q.needle.Straddles t.tags)) ∧
        (t.title.getD "" = "" → q.needle.words ≠ [] → ∀ window now,
          e.accepted q window now = true → ofFacets q.needle f ≠ []) := by
  intro q e hne
  obtain ⟨ws, hn⟩ : ∃ ws, q.needle.Spelled ws := Needle.spelled_parse raw verbatim
  obtain ⟨f, hf, hscore⟩ := exists_facets_ofThread hn hne t note
  refine ⟨f, hf, ?_, fun htitle hwords window now hkept => ?_⟩
  · rw [← Needle.touches_iff hn hne]
    exact hscore
  · obtain ⟨parts, fields, he⟩ := (Entry.Prepared.thread t note).lists
    have hpos := he.score_pos_of_matches hn hne (Entry.matches_of_accepted hkept)
    rcases hscore.mp hpos with hbadge | ⟨hno, -⟩ | ⟨hno, -⟩
    · exact hbadge
    · exact absurd htitle hno
    · exact absurd hno hwords

/-- A thread about two tags whose phrase lies across them. -/
def tagged : Thread where
  id := "t1"
  question := "Notes"
  tags := ["deep", "work"]

theorem score_pos_iff_explained_tagged :
    (Query.parse "\"deep work\"" true).needle.phrase ≠ "" ∧
      0 < Score.ofLowered (Query.parse "\"deep work\"" true).needle
        (Entry.ofThread tagged none).fields ∧
      ∃ f, (Entry.ofThread tagged none).facets? = some f ∧
        (Entry.ofThread tagged none).accepted (Query.parse "deep notes" false) "all" 0 = true ∧
        ofFacets (Query.parse "deep notes" false).needle f ≠ [] := by
  have hphrase : (Query.parse "\"deep work\"" true).needle.phrase ≠ "" := by decide +kernel
  have hkept : (Entry.ofThread tagged none).accepted (Query.parse "deep notes" false) "all" 0 =
      true := by decide +kernel
  obtain ⟨_, -, hscore, -⟩ := score_pos_iff_explained "\"deep work\"" true tagged none hphrase
  obtain ⟨f, hf, -, hbadge⟩ := score_pos_iff_explained "deep notes" false tagged none
    (by decide +kernel)
  refine ⟨hphrase, hscore.mpr (.inr (.inr ⟨by decide +kernel, by decide +kernel⟩)), f, hf, hkept, ?_⟩
  exact hbadge rfl (by decide +kernel) "all" 0 hkept

end Badge

end Recall
