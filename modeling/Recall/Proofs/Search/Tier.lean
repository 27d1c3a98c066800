/-
Recall.Proofs.Search.Tier — what a field scores.

A field earns points for the phrase, by the best of the ways in which it can have it (`Tier`), and one
point for every word that it has. The two are looked for one by one, but they are not independent: the
words make the phrase, so a field that has the phrase has every word. It earns all the points for words,
and a field without the phrase earns at most as many (`points_le`, `points_eq`). This is why no number of
words makes up for the phrase, and why of two fields of equal weight the one in the better tier scores
more (`points_lt_points`).

The score is the sum over the fields, so it can be taken over the fields that are lowered beforehand: the
ones left out are empty, and an empty field scores nothing (`sum_filter_text`).

In eighths this is all exact. With weights of the binary64 format points are counted as far as `2 ^ 53`,
and the product with the weight is rounded. Three points more make a difference that rounding keeps
(`Binary64.times_less`), so the tiers stay apart, unless both scores are infinite (`score_overflow`).
-/
import Recall.Proofs.Number.Binary64
import Recall.Proofs.Search.Score

namespace Recall

namespace Score

/-! ## 1. Tiers -/

/-- The ways in which a text can have a phrase, best first. -/
inductive Tier where
  | whole
  | start
  | inside
  | absent
  deriving DecidableEq, Repr

/-- The lower case of the text has the phrase in this way, and in no better one. -/
def Tier.Holds (n : Needle) (t : String) : Tier → Prop
  | whole => Text.lower t = n.phrase
  | start => n.phrase.toList <+: (Text.lower t).toList ∧ Text.lower t ≠ n.phrase
  | inside => n.phrase.toList <:+: (Text.lower t).toList ∧
      ¬ n.phrase.toList <+: (Text.lower t).toList
  | absent => ¬ n.phrase.toList <:+: (Text.lower t).toList

instance (n : Needle) (t : String) : (tier : Tier) → Decidable (tier.Holds n t)
  | .whole => inferInstanceAs (Decidable (_ = _))
  | .start => inferInstanceAs (Decidable (_ ∧ _))
  | .inside => inferInstanceAs (Decidable (_ ∧ _))
  | .absent => inferInstanceAs (Decidable (¬ _))

/-- The points for the phrase. -/
def Tier.points : Tier → Nat
  | whole => 20
  | start => 12
  | inside => 8
  | absent => 0

theorem phrasePoints_eq {n : Needle} {t : String} : ∀ {tier : Tier}, tier.Holds n t →
    phrasePoints n.phrase (Text.lower t) = tier.points
  | .whole, h => if_pos h
  | .start, h => by
      rw [phrasePoints, if_neg h.2, if_pos (List.isPrefixOf_iff_prefix.mpr h.1)]
      rfl
  | .inside, h => by
      have hne : Text.lower t ≠ n.phrase := by
        intro heq
        apply h.2
        rw [heq]
      rw [phrasePoints, if_neg hne, if_neg (mt List.isPrefixOf_iff_prefix.mp h.2),
        if_pos (Text.occursIn_iff.mpr h.1)]
      rfl
  | .absent, h => by
      have hzero := mt phrasePoints_pos_iff.mp (mt Text.occursIn_iff.mp h)
      exact Nat.eq_zero_of_not_pos hzero

/-- Each text is in one tier. -/
theorem existsUnique_holds (n : Needle) (t : String) : ∃! tier : Tier, tier.Holds n t := by
  have hunique : ∀ {tier tier' : Tier}, tier.Holds n t → tier'.Holds n t → tier' = tier := by
    intro tier tier' h h'
    have hpoints : tier'.points = tier.points := by
      rw [← phrasePoints_eq h, ← phrasePoints_eq h']
    revert hpoints
    cases tier <;> cases tier' <;> decide
  suffices hexists : ∃ tier : Tier, tier.Holds n t by
    obtain ⟨tier, h⟩ := hexists
    exact ⟨tier, h, fun tier' => hunique h⟩
  by_cases hinfix : n.phrase.toList <:+: (Text.lower t).toList
  · by_cases hprefix : n.phrase.toList <+: (Text.lower t).toList
    · by_cases heq : Text.lower t = n.phrase
      · exact ⟨.whole, heq⟩
      · exact ⟨.start, hprefix, heq⟩
    · exact ⟨.inside, hinfix, hprefix⟩
  · exact ⟨.absent, hinfix⟩

/-! ## 2. Sums -/

theorem ofField_lower_empty {W : Type} [Reckoning W] (n : Needle) (w : W) :
    ofField n (Text.lower "") w = Reckoning.zero :=
  if_pos rfl

theorem ofFields_eq_sum {n : Needle} (hne : n.phrase ≠ "") (fields : List Field) :
    ofFields n fields = (fields.map fun f => ofField n (Text.lower f.text) f.weight).sum := by
  rw [ofFields, if_neg hne, total_eq_sum]

theorem ofLowered_eq_sum {n : Needle} (hne : n.phrase ≠ "") (fields : List Field) :
    ofLowered n fields = (fields.map fun f => ofField n f.text f.weight).sum := by
  rw [ofLowered, if_neg hne, total_eq_sum]

theorem ofFields_singleton {n : Needle} (hne : n.phrase ≠ "") (f : Field) :
    ofFields n [f] = ofField n (Text.lower f.text) f.weight := by
  rw [ofFields_eq_sum hne, List.map_singleton, List.sum_singleton]

/-- In eighths the score of a list of fields is the sum of their scores. -/
theorem ofFields_eq_sum_singletons {n : Needle} (hne : n.phrase ≠ "") (fields : List Field) :
    ofFields n fields = (fields.map fun f => ofFields n [f]).sum := by
  rw [ofFields_eq_sum hne]
  exact congrArg List.sum (List.map_congr_left fun f _ => (ofFields_singleton hne f).symm)

/-- Fields without a text can be left out. -/
theorem sum_filter_text (n : Needle) (fields : List Field) :
    ((fields.filter fun f => f.text != "").map fun f =>
        ofField n (Text.lower f.text) f.weight).sum =
      (fields.map fun f => ofField n (Text.lower f.text) f.weight).sum := by
  induction fields with
  | nil => rfl
  | cons f r ih =>
    by_cases hf : f.text = ""
    · have hzero : ofField n (Text.lower "") f.weight = 0 := ofField_lower_empty n f.weight
      simp [hf, ih, hzero]
    · simp [hf, ih]

/-- **Lowering beforehand.** Fields that are lowered once and for all, without the empty ones, score what
the fields score, whatever the needle asks for. -/
theorem ofLowered_lowerFields (n : Needle) (fields : List Field) :
    ofLowered n (lowerFields fields) = ofFields n fields := by
  by_cases hne : n.phrase = ""
  · rw [ofLowered, ofFields, if_pos hne, if_pos hne]
  · rw [ofLowered_eq_sum hne, ofFields_eq_sum hne, lowerFields, List.map_map]
    exact sum_filter_text n fields

/-! ## 3. Points and scores -/

/-- The points of a text, for the phrase and for the words. -/
def points (n : Needle) (t : String) : Nat :=
  phrasePoints n.phrase (Text.lower t) + wordPoints n.words (Text.lower t)

theorem wordPoints_eq_countP (words : List String) (lowered : String) :
    wordPoints words lowered = words.countP fun v => v.toList <:+: lowered.toList := by
  rw [wordPoints, List.countP_eq_length_filter]
  refine congrArg List.length (List.filter_congr fun v _ => ?_)
  rw [Bool.eq_iff_iff, Text.occursIn_iff, decide_eq_true_iff]

theorem wordPoints_le (words : List String) (lowered : String) :
    wordPoints words lowered ≤ words.length :=
  List.length_filter_le _ _

section Spelled

variable {n : Needle} {ws : List String} {t : String} {tier : Tier}

/-- Where the phrase is, every word counts. -/
theorem wordPoints_eq_length (h : n.Spelled ws)
    (hphrase : Text.occursIn n.phrase (Text.lower t) = true) :
    wordPoints n.words (Text.lower t) = n.words.length :=
  List.length_filter_eq_length_iff.mpr fun _ hw => h.occursIn_of_phrase hphrase (h.mem hw)

theorem points_eq (h : n.Spelled ws) (ht : tier.Holds n t) (htier : tier ≠ .absent) :
    points n t = tier.points + n.words.length := by
  have hphrase : Text.occursIn n.phrase (Text.lower t) = true := by
    rw [← phrasePoints_pos_iff, phrasePoints_eq ht]
    cases tier with
    | absent => exact absurd rfl htier
    | whole | start | inside => decide
  rw [points, phrasePoints_eq ht, wordPoints_eq_length h hphrase]

theorem points_le (ht : tier.Holds n t) : points n t ≤ tier.points + n.words.length := by
  rw [points, phrasePoints_eq ht]
  exact Nat.add_le_add_left (wordPoints_le _ _) _

/-- A better tier has more points, whatever the words. -/
theorem points_lt_points (h : n.Spelled ws) {u : String} {tier' : Tier} (ht : tier.Holds n t)
    (hu : tier'.Holds n u) (hlt : tier'.points < tier.points) : points n u < points n t := by
  have hpresent : tier ≠ .absent := by
    rintro rfl
    exact absurd hlt (Nat.not_lt_zero _)
  rw [points_eq h ht hpresent]
  exact Nat.lt_of_le_of_lt (points_le hu) (Nat.add_lt_add_right hlt _)

/-- There is nothing in an empty text. -/
theorem points_empty (h : n.Spelled ws) (hne : n.phrase ≠ "") : points n "" = 0 := by
  by_contra hpoints
  rcases Nat.add_pos_iff_pos_or_pos.mp (Nat.pos_of_ne_zero hpoints) with hphrase | hwords
  · exact Text.ne_empty_of_occursIn_lower hne (phrasePoints_pos_iff.mp hphrase) rfl
  · obtain ⟨w, hw, hoccurs⟩ := wordPoints_pos_iff.mp hwords
    exact Text.ne_empty_of_occursIn_lower (h.ne_empty hw) hoccurs rfl

/-- A field scores its points times its weight. -/
theorem ofField_lower (h : n.Spelled ws) (hne : n.phrase ≠ "") (t : String) (w : Score) :
    ofField n (Text.lower t) w = points n t * w := by
  rw [ofField_eq]
  split
  · rename_i hempty
    rw [Text.lower_eq_empty_iff.mp hempty, points_empty h hne]
    simp
  · rfl

theorem score_eq_points (h : n.Spelled ws) (hne : n.phrase ≠ "") (t : String) (w : Score) :
    ofFields n [⟨t, w⟩] = points n t * w := by
  rw [ofFields_singleton hne, ofField_lower h hne]

/-- In eighths a field scores by its tier, unless it lacks the phrase. -/
theorem score_of_holds (h : n.Spelled ws) (hne : n.phrase ≠ "") (ht : tier.Holds n t)
    (htier : tier ≠ .absent) (w : Score) :
    ofFields n [⟨t, w⟩] = (tier.points + n.words.length) * w := by
  rw [score_eq_points h hne, points_eq h ht htier, Int.natCast_add]

theorem points_of_absent (ht : Tier.absent.Holds n t) :
    points n t = n.words.countP fun v => v.toList <:+: (Text.lower t).toList := by
  rw [points, phrasePoints_eq ht, wordPoints_eq_countP, Tier.points, Nat.zero_add]

/-- In eighths a better tier always scores more. -/
theorem score_lt_score (h : n.Spelled ws) (hne : n.phrase ≠ "") {u : String} {tier' : Tier}
    (ht : tier.Holds n t) (hu : tier'.Holds n u) (hlt : tier'.points < tier.points) {w : Score}
    (hw : 0 < w) : ofFields n [⟨u, w⟩] < ofFields n [⟨t, w⟩] := by
  rw [score_eq_points h hne, score_eq_points h hne]
  exact Int.mul_lt_mul_of_pos_right (Int.ofNat_lt.mpr (points_lt_points h ht hu hlt)) hw

end Spelled

/-! ## 4. Weights of the binary64 format -/

open Binary64 (counted)

section Rounded

open Binary64 (FromZero Less Plus minusZero)

theorem ofFields_singleton_binary64 {n : Needle} (hne : n.phrase ≠ "") (t : String) (w : Binary64) :
    ofFields n [⟨t, w⟩] = Binary64.zero.add (ofField n (Text.lower t) w) :=
  if_neg hne

/-- To a sum that starts from zero each score can be added as a sum of its own. -/
theorem total_map_zero_add {scores : List Binary64} (h : ∀ x ∈ scores, Plus x ∨ x = minusZero) :
    total (scores.map Binary64.zero.add) = total scores := by
  suffices hfrom : ∀ s, Plus s →
      (scores.map Binary64.zero.add).foldl Binary64.add s = scores.foldl Binary64.add s from
    hfrom _ Binary64.plus_zero
  induction scores with
  | nil => exact fun _ _ => rfl
  | cons x r ih =>
    intro s hs
    have hrest := ih fun y hy => h y (List.mem_cons_of_mem x hy)
    have hzero := Binary64.plus_zero
    rw [List.map_cons, List.foldl_cons, List.foldl_cons]
    rcases h x List.mem_cons_self with hx | rfl
    · rw [hx.zero_add]
      exact hrest _ (hs.add hx)
    · rw [hzero.add_minusZero, hzero.zero_add, hs.add_minusZero]
      exact hrest _ (hs.add hzero)

theorem ofField_lower_minusZero (n : Needle) (t : String) (e : Int) :
    ofField n (Text.lower t) (Binary64.finite true 0 e) = .zero ∨
      ofField n (Text.lower t) (Binary64.finite true 0 e) = minusZero := by
  rw [ofField]
  split
  · exact Or.inl rfl
  · exact Or.inr (Binary64.times_zero_mantissa _ _ _)

theorem Tier.points_le_twenty (tier : Tier) : tier.points ≤ 20 := by
  cases tier <;> decide

/-- Between two tiers there are three points at least. -/
theorem Tier.points_add_lt {tier tier' : Tier} (h : tier'.points < tier.points) :
    tier'.points + 2 < tier.points := by
  revert h
  cases tier <;> cases tier' <;> decide

theorem counted_eq {p : Nat} (h : p ≤ Binary64.countLimit) : counted p = p :=
  Nat.min_eq_left h

variable {n : Needle} {ws : List String} (h : n.Spelled ws) (hne : n.phrase ≠ "")
include h hne

/-- A field scores its points times its weight, which is rounded once. -/
theorem ofField_lower_binary64 (t : String) (m : Nat) (e : Int) :
    ofField n (Text.lower t) (Binary64.finite false m e) =
      Binary64.times (counted (points n t)) (.finite false m e) := by
  rw [ofField]
  split
  · rename_i hempty
    have hpoints : counted (points n "") = 0 := by
      rw [points_empty h hne, counted_eq (Nat.zero_le _)]
    rw [Text.lower_eq_empty_iff.mp hempty, hpoints]
    exact (Binary64.times_zero _ _ _).symm
  · rfl

theorem score_binary64 (t : String) {w : Binary64} (hw : FromZero w) :
    ofFields n [⟨t, w⟩] = w.abs.times (counted (points n t)) := by
  rw [ofFields_singleton_binary64 hne]
  cases hw with
  | plus m e =>
    rw [ofField_lower_binary64 h hne]
    exact (Binary64.plus_times _ _ _).zero_add
  | minusZero e =>
    have hzero := Binary64.plus_zero
    have hproduct : (Binary64.finite true 0 e).abs.times (counted (points n t)) = .zero :=
      Binary64.times_zero_mantissa _ _ _
    rw [hproduct]
    rcases ofField_lower_minusZero n t e with hfield | hfield
    · rw [hfield, hzero.zero_add]
    · rw [hfield, hzero.add_minusZero, hzero.zero_add]

theorem score_binary64_of_holds {t : String} {tier : Tier} (ht : tier.Holds n t)
    (htier : tier ≠ .absent) {w : Binary64} (hw : FromZero w) :
    ofFields n [⟨t, w⟩] = w.abs.times (counted (tier.points + n.words.length)) := by
  rw [score_binary64 h hne t hw, points_eq h ht htier]

/-- The score of a list of fields is the sum of their scores, from the first to the last. -/
theorem ofFields_eq_total_singletons {fields : List (Field Binary64)}
    (hw : ∀ f ∈ fields, FromZero f.weight) :
    ofFields n fields = total (fields.map fun f => ofFields n [f]) := by
  have hscores : ∀ x ∈ fields.map fun f => ofField n (Text.lower f.text) f.weight,
      Plus x ∨ x = minusZero := by
    intro x hx
    obtain ⟨⟨t, w⟩, hf, rfl⟩ := List.mem_map.mp hx
    cases hw _ hf with
    | plus m e =>
      rw [ofField_lower_binary64 h hne]
      exact Or.inl (Binary64.plus_times _ _ _)
    | minusZero e =>
      refine (ofField_lower_minusZero n t e).imp (fun hzero => ?_) id
      rw [hzero]
      exact Binary64.plus_zero
  rw [ofFields, if_neg hne, ← total_map_zero_add hscores, List.map_map]
  refine congrArg total (List.map_congr_left fun f _ => ?_)
  exact (ofFields_singleton_binary64 hne f.text f.weight).symm

/-- With points that are counted exactly a better tier scores more, unless the scores are infinite. -/
theorem score_less (hcount : 20 + n.words.length ≤ Binary64.countLimit) {t u : String}
    {tier tier' : Tier} (ht : tier.Holds n t) (hu : tier'.Holds n u)
    (hlt : tier'.points < tier.points) {m : Nat} {e : Int} (hm : 0 < m) (he : -1074 ≤ e) :
    let w := Binary64.finite false m e
    Less (ofFields n [⟨u, w⟩]) (ofFields n [⟨t, w⟩]) ∨
      ofFields n [⟨u, w⟩] = .infinite false ∧ ofFields n [⟨t, w⟩] = .infinite false := by
  intro w
  have hpresent : tier ≠ .absent := by
    rintro rfl
    exact absurd hlt (Nat.not_lt_zero _)
  have hmore := points_eq h ht hpresent
  have hgap : points n u + 2 < points n t := by
    have hless := points_le hu
    have htiers := Tier.points_add_lt hlt
    omega
  have hlimit : points n t ≤ Binary64.countLimit := by
    have htier := tier.points_le_twenty
    omega
  rw [score_binary64 h hne _ (.plus m e), score_binary64 h hne _ (.plus m e), counted_eq hlimit,
    counted_eq (by omega)]
  exact Binary64.times_less hm he hgap hlimit

end Rounded

/-- **Scores by tier.** Let a needle with a phrase be read from a query, and have `k` words. A field gets
20 and `k` points if its lower case is the phrase, 12 and `k` if it begins with it otherwise, 8 and `k` if
it only has it further on; and without the phrase, as many as there are words in it, of which there are at
most `k`. Each text is in one of these tiers.

A field with a finite weight from zero up scores its points times its weight, rounded once, and the score
of fields is the sum of their scores, rounded from one to the next. With so few words that all points are
counted, of two fields of equal positive weight the one in the better tier scores more, unless both scores
are beyond the largest finite number. -/
theorem score_by_tier {n : Needle} (hread : ∃ raw verbatim, (Query.parse raw verbatim).needle = n)
    (hne : n.phrase ≠ "") :
    (∀ t : String, ∃! tier : Tier, tier.Holds n t) ∧
    (∀ (t : String) (w : Binary64), w.FromZero →
      (Tier.whole.Holds n t → ofFields n [⟨t, w⟩] = w.abs.times (counted (20 + n.words.length))) ∧
      (Tier.start.Holds n t → ofFields n [⟨t, w⟩] = w.abs.times (counted (12 + n.words.length))) ∧
      (Tier.inside.Holds n t → ofFields n [⟨t, w⟩] = w.abs.times (counted (8 + n.words.length))) ∧
      (Tier.absent.Holds n t → ∃ j ≤ n.words.length,
        j = n.words.countP (fun v => v.toList <:+: (Text.lower t).toList) ∧
        ofFields n [⟨t, w⟩] = w.abs.times (counted j))) ∧
    (∀ fields : List (Field Binary64), (∀ f ∈ fields, f.weight.FromZero) →
      ofFields n fields = total (fields.map fun f => ofFields n [f])) ∧
    (20 + n.words.length ≤ Binary64.countLimit →
      (∀ p ≤ 20 + n.words.length, counted p = p) ∧
      ∀ (t u : String) (tier tier' : Tier), tier.Holds n t → tier'.Holds n u →
        tier'.points < tier.points → ∀ (m : Nat) (e : Int), 0 < m → -1074 ≤ e →
          let w := Binary64.finite false m e
          (ofFields n [⟨u, w⟩]).Less (ofFields n [⟨t, w⟩]) ∨
            ofFields n [⟨u, w⟩] = .infinite false ∧ ofFields n [⟨t, w⟩] = .infinite false) := by
  obtain ⟨ws, h⟩ : ∃ ws, n.Spelled ws := by
    obtain ⟨raw, verbatim, rfl⟩ := hread
    exact Needle.spelled_parse raw verbatim
  have hpresent := @score_binary64_of_holds n ws h hne
  refine ⟨existsUnique_holds n, fun t w hw => ⟨?_, ?_, ?_, ?_⟩,
    fun fields hw => ofFields_eq_total_singletons h hne hw, fun hcount => ⟨?_, ?_⟩⟩
  · exact fun ht => hpresent ht nofun hw
  · exact fun ht => hpresent ht nofun hw
  · exact fun ht => hpresent ht nofun hw
  · intro ht
    refine ⟨_, List.countP_le_length, rfl, ?_⟩
    rw [score_binary64 h hne t hw, points_of_absent ht]
  · exact fun p hp => counted_eq (hp.trans hcount)
  · intro t u tier tier' ht hu hlt m e hm he
    exact score_less h hne hcount ht hu hlt hm he

/-- A phrase with a word that comes twice. -/
def streetNeedle : Needle := ⟨"plan οδος plan", ["plan", "οδος"]⟩

/-- The number nearest to one tenth. -/
def tenth : Binary64 := .finite false 7205759403792794 (-56)

/-- At the same weight: the phrase in capitals, the phrase with more behind it, the phrase behind a word
in which it seems to begin, and both words without the phrase. -/
theorem score_by_tier_streetNeedle :
    (∃ raw verbatim, (Query.parse raw verbatim).needle = streetNeedle) ∧ streetNeedle.phrase ≠ "" ∧
      20 + streetNeedle.words.length ≤ Binary64.countLimit ∧
      ofFields streetNeedle [⟨"PLAN ΟΔΟΣ PLAN", tenth⟩] = tenth.times (20 + 2) ∧
      ofFields streetNeedle [⟨"plan οδος plans", tenth⟩] = tenth.times (12 + 2) ∧
      ofFields streetNeedle [⟨"plan plan οδος plan", tenth⟩] = tenth.times (8 + 2) ∧
      (∃ j : Nat, j ≤ 2 ∧ j = 2 ∧ ofFields streetNeedle [⟨"οδος: plan", tenth⟩] = tenth.times j) ∧
      (ofFields streetNeedle [⟨"οδος: plan", tenth⟩]).Less
        (ofFields streetNeedle [⟨"plan plan οδος plan", tenth⟩]) ∧
      ofFields streetNeedle [⟨"οδος: plan", tenth⟩, ⟨"PLAN ΟΔΟΣ PLAN", tenth⟩] =
        total [ofFields streetNeedle [⟨"οδος: plan", tenth⟩],
          ofFields streetNeedle [⟨"PLAN ΟΔΟΣ PLAN", tenth⟩]] := by
  have hread : ∃ raw verbatim, (Query.parse raw verbatim).needle = streetNeedle :=
    ⟨"Plan ΟΔΟΣ plan", false, by decide +kernel⟩
  have hne : streetNeedle.phrase ≠ "" := by decide
  have hcount : 20 + streetNeedle.words.length ≤ Binary64.countLimit := by decide
  have hinside : Tier.inside.Holds streetNeedle "plan plan οδος plan" := by decide +kernel
  have habsent : Tier.absent.Holds streetNeedle "οδος: plan" := by decide +kernel
  have hweight : tenth.FromZero := .plus _ _
  obtain ⟨-, htiers, hsum, hlt⟩ := score_by_tier hread hne
  obtain ⟨hcounted, hlt⟩ := hlt hcount
  obtain ⟨j, hle, hj, hscore⟩ := (htiers "οδος: plan" tenth hweight).2.2.2 habsent
  rw [hcounted j (hle.trans (Nat.le_add_left _ _))] at hscore
  refine ⟨hread, hne, hcount, (htiers _ tenth hweight).1 (by decide +kernel),
    (htiers _ tenth hweight).2.1 (by decide +kernel), (htiers _ tenth hweight).2.2.1 hinside,
    ⟨j, hle, ?_, hscore⟩, ?_, ?_⟩
  · rw [hj]
    decide +kernel
  · have hfinite : ofFields streetNeedle [⟨"οδος: plan", tenth⟩] ≠ .infinite false := by
      decide +kernel
    have hless := hlt _ _ _ _ hinside habsent (by decide) 7205759403792794 (-56) (by decide)
      (by decide)
    exact hless.resolve_right fun hinfinite => hfinite hinfinite.1
  · refine hsum _ fun f hf => ?_
    simp only [List.mem_cons, List.not_mem_nil, or_false] at hf
    rcases hf with rfl | rfl <;> exact hweight

/-- The number nearest to `10 ^ 308`. -/
def heavy : Binary64 := .finite false 5010420900022432 971

/-- With a weight that is large enough the two best tiers score the same. -/
theorem score_overflow :
    (Query.parse "road" false).needle.phrase ≠ "" ∧
      Tier.whole.Holds (Query.parse "road" false).needle "road" ∧
      Tier.start.Holds (Query.parse "road" false).needle "roadmap" ∧
      ofFields (Query.parse "road" false).needle [⟨"road", heavy⟩] = .infinite false ∧
      ofFields (Query.parse "road" false).needle [⟨"roadmap", heavy⟩] = .infinite false := by
  decide +kernel

end Score

end Recall
