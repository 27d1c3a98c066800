/-
Recall.Proofs.Search.Agreement — what a query finds also scores.

An entry lists the texts of its record twice: joined, for the filter, and one by one with weights,
for the score. The two lists hold the same texts whatever the kind of the record (`Prepared.lists`).
What the filter finds in the joined texts is in one of them, and then that text scores; so an entry
that is found has a positive score, and where the phrase is all there is to look for the converse
holds too (`matches_agree_scores`).
-/
import Recall.Proofs.Engine.Best
import Recall.Proofs.Search.Score

namespace Recall

namespace Entry

/-! ## 1. The texts of an entry -/

/-- The entries that records are prepared as. -/
inductive Prepared : Entry → Prop
  | thread (t : Thread) (note : Option String) : Prepared (ofThread t note)
  | space (s : Space) (tags : List String) : Prepared (ofSpace s tags)
  | collection (c : Collection) : Prepared (ofCollection c)
  | file (f : LibraryFile) : Prepared (ofFile f)
  | task (t : Task) : Prepared (ofTask t)

/-- The texts of an entry as the filter has them and as the score has them: the same ones, and every
one counts. -/
structure Lists (e : Entry) (parts : List (Option String)) (fields : List Field) : Prop where
  combined : e.combined = Needle.combine parts
  lowered : e.fields = Score.lowerFields fields
  weight_pos : ∀ f ∈ fields, 0 < f.weight
  same : ∀ s, s ≠ "" → (some s ∈ parts ↔ ∃ f ∈ fields, s = f.text)

theorem eq_getD_empty_iff {o : Option String} {s : String} (h : s ≠ "") :
    s = o.getD "" ↔ some s = o := by
  cases o with
  | none => simp [h]
  | some t => simp

theorem Prepared.lists {e : Entry} (h : Prepared e) : ∃ parts fields, e.Lists parts fields := by
  cases h with
  | collection | file =>
    refine ⟨_, _, rfl, rfl, ?_, fun s _ => ?_⟩
    · simp only [List.forall_mem_cons]
      decide
    · simp only [List.mem_cons, List.not_mem_nil, or_false, exists_eq_or_imp, exists_eq_left,
        Option.some.injEq]
  | thread | space | task =>
    refine ⟨_, _, rfl, rfl, ?_, fun s hs => ?_⟩
    · simp only [List.forall_mem_cons]
      decide
    · -- The two lists have the same texts in another order.
      simp only [List.mem_cons, List.not_mem_nil, or_false, exists_eq_or_imp, exists_eq_left,
        Option.some.injEq, eq_getD_empty_iff hs]
      exact Iff.of_eq (by ac_rfl)

/-- Every kind of record is prepared for the engine. -/
theorem prepared_of_mem_entries {d : Dataset} {kind : Kind} {e : Entry}
    (h : e ∈ Engine.entries d kind) : Prepared e := by
  cases kind with
  | thread =>
    obtain ⟨t, -, rfl⟩ := List.mem_map.mp h
    exact .thread t _
  | space =>
    obtain ⟨s, -, rfl⟩ := List.mem_map.mp h
    exact .space s _
  | collection =>
    obtain ⟨c, -, rfl⟩ := List.mem_map.mp h
    exact .collection c
  | file =>
    obtain ⟨f, -, rfl⟩ := List.mem_map.mp h
    exact .file f
  | task =>
    obtain ⟨t, -, rfl⟩ := List.mem_map.mp h
    exact .task t

/-! ## 2. Matching and scoring -/

section Lists

variable {e : Entry} {parts : List (Option String)} {fields : List Field} {n : Needle}
  {ws : List String}

/-- An entry scores when the needle touches one of its texts. -/
theorem Lists.score_pos_iff (he : e.Lists parts fields) (hne : n.phrase ≠ "") :
    0 < Score.ofLowered n e.fields ↔ ∃ p, some p ∈ parts ∧ n.touches p = true := by
  rw [he.lowered, Score.ofLowered_pos_iff hne he.weight_pos]
  constructor
  · rintro ⟨f, hf, htouch⟩
    exact ⟨f.text, (he.same f.text (Needle.ne_empty_of_touches htouch)).mpr ⟨f, hf, rfl⟩, htouch⟩
  · rintro ⟨p, hp, htouch⟩
    obtain ⟨f, hf, rfl⟩ := (he.same p (Needle.ne_empty_of_touches htouch)).mp hp
    exact ⟨f, hf, htouch⟩

theorem Lists.score_pos_of_matches (he : e.Lists parts fields) (hn : n.Spelled ws)
    (hne : n.phrase ≠ "") (h : n.matchesLowered e.combined = true) :
    0 < Score.ofLowered n e.fields := by
  rw [he.combined, Needle.matchesLowered_combine hn hne] at h
  rw [he.score_pos_iff hne]
  rcases h with ⟨p, hp, hphrase⟩ | ⟨hwords, hall⟩
  · exact ⟨p, hp, (Needle.touches_iff hn hne p).mpr (.inl hphrase)⟩
  · obtain ⟨w, hw⟩ := List.exists_mem_of_ne_nil _ hwords
    obtain ⟨p, hp, hword⟩ := hall w hw
    exact ⟨p, hp, (Needle.touches_iff hn hne p).mpr (.inr ⟨w, hw, hword⟩)⟩

/-- Where there are no words to look for beside the phrase, what scores is also found. -/
theorem Lists.matches_of_score_pos (he : e.Lists parts fields) (hn : n.Spelled ws)
    (hne : n.phrase ≠ "") (hwords : ∀ w ∈ n.words, w = n.phrase)
    (h : 0 < Score.ofLowered n e.fields) : n.matchesLowered e.combined = true := by
  obtain ⟨p, hp, htouch⟩ := (he.score_pos_iff hne).mp h
  rw [he.combined, Needle.matchesLowered_combine hn hne]
  rcases (Needle.touches_iff hn hne p).mp htouch with hphrase | ⟨w, hw, hword⟩
  · exact .inl ⟨p, hp, hphrase⟩
  · exact .inl ⟨p, hp, hwords w hw ▸ hword⟩

end Lists

/-! ## 3. Results -/

theorem matches_of_accepted {e : Entry} {q : Query} {window : String} {now : Int}
    (h : e.accepted q window now = true) : q.needle.matchesLowered e.combined = true := by
  simp only [accepted, Bool.and_eq_true] at h
  exact h.1.1.1.1.2

/-- What a search answers with was prepared from a record and has the free text of the query. -/
theorem prepared_of_mem_best {settings : Settings} {d : Dataset} {rq : Request} {kind : Kind}
    {x : Engine.Row} (h : x ∈ Engine.best settings d rq kind) :
    Prepared x.1 ∧ (Engine.asked settings d rq).needle.matchesLowered x.1.combined = true := by
  have hfound : x ∈ Engine.found settings d rq kind :=
    (List.mergeSort_perm _ _).mem_iff.mp (List.mem_of_mem_take h)
  obtain ⟨hentry, hkept⟩ := List.mem_filter.mp hfound
  have hmem : x.1 ∈ Engine.entries d kind := List.fst_mem_of_mem_zipIdx hentry
  exact ⟨prepared_of_mem_entries hmem, matches_of_accepted (of_decide_eq_true hkept).2⟩

/-- **What is found scores.** An entry of any kind that has the free text of a query has a positive
score for it. For a query that asks for the phrase alone, or whose phrase is a single word, the two
say the same. So no hit of a query with free text has score zero. -/
theorem matches_agree_scores :
    (∀ (raw : String) (verbatim : Bool) (e : Entry), Prepared e →
      let n := (Query.parse raw verbatim).needle
      n.phrase ≠ "" →
      (n.matchesLowered e.combined = true → 0 < Score.ofLowered n e.fields) ∧
      (n.words = [] ∨ (Text.words n.phrase).length = 1 →
        (n.matchesLowered e.combined = true ↔ 0 < Score.ofLowered n e.fields))) ∧
    ∀ (settings : Settings) (d : Dataset) (rq : Request) (kind : Kind) (g : Group),
      (Engine.asked settings d rq).needle.phrase ≠ "" →
      (Engine.search settings d rq).group? kind.name = some g → ∀ h ∈ g.hits, 0 < h.score := by
  refine ⟨?_, fun settings d rq kind g hne hg h hh => ?_⟩
  · intro raw verbatim e hprep n hne
    obtain ⟨parts, fields, he⟩ := hprep.lists
    obtain ⟨ws, hn⟩ : ∃ ws, n.Spelled ws := Needle.spelled_parse raw verbatim
    refine ⟨he.score_pos_of_matches hn hne, fun hshort =>
      ⟨he.score_pos_of_matches hn hne, he.matches_of_score_pos hn hne fun w hw => ?_⟩⟩
    rcases hshort with hnil | hone
    · rw [hnil] at hw
      cases hw
    · exact hn.eq_phrase_of_length hone hw
  · rw [Engine.group?_search_eq, Option.some.injEq] at hg
    subst hg
    obtain ⟨x, hx, rfl⟩ := List.mem_map.mp hh
    obtain ⟨hprep, hmatch⟩ := prepared_of_mem_best hx
    obtain ⟨parts, fields, he⟩ := hprep.lists
    obtain ⟨ws, hn⟩ := Needle.spelled_parse rq.raw
      (rq.verbatim.getD (d.verbatim || settings.verbatim))
    exact he.score_pos_of_matches hn hne hmatch

/-- A thread whose title ends in a capital sigma, which is lowered as at the end of a word although
the question stands behind it in the combined text. -/
def street : Thread where
  id := "t1"
  title := some "ΟΔΟΣ"
  question := "Σ plan"

theorem matches_agree_scores_street :
    Prepared (ofThread street none) ∧
      (Query.parse "plan οδος" false).needle.matchesLowered (ofThread street none).combined = true ∧
      0 < Score.ofLowered (Query.parse "plan οδος" false).needle (ofThread street none).fields ∧
      ((Query.parse "οδοσ" false).needle.matchesLowered (ofThread street none).combined = true ↔
        0 < Score.ofLowered (Query.parse "οδοσ" false).needle (ofThread street none).fields) ∧
      ∃ g h, (Engine.search {} { threads := [street] } { raw := "οδος" }).group? "thread" = some g ∧
        h ∈ g.hits ∧ 0 < h.score := by
  have hprep : Prepared (ofThread street none) := .thread street none
  have hfound : (Query.parse "plan οδος" false).needle.matchesLowered
      (ofThread street none).combined = true := by decide +kernel
  have hgroup : (Engine.search {} { threads := [street] } { raw := "οδος" }).group? "thread" =
      some ⟨.thread, 1, [⟨.thread street, 672, [.title]⟩]⟩ := by decide +kernel
  refine ⟨hprep, hfound, ?_, ?_, _, ⟨.thread street, 672, [.title]⟩, hgroup, List.mem_cons_self, ?_⟩
  · exact (matches_agree_scores.1 "plan οδος" false _ hprep (by decide +kernel)).1 hfound
  · exact (matches_agree_scores.1 "οδοσ" false _ hprep (by decide +kernel)).2
      (.inr (by decide +kernel))
  · exact matches_agree_scores.2 {} { threads := [street] } { raw := "οδος" } .thread _
      (by decide +kernel) hgroup _ List.mem_cons_self

end Entry

end Recall
