/-
Recall.Proofs.Selection.Recent — the recent queries are the latest distinct ones.

Putting a query in front takes it out from where it was and cuts the list to the limit, so what falls
off the end is lost. It is not missed: the list is always what all queries so far, the latest first,
come to without repeats and cut to the limit (`latest`). A query that is put in front takes at most
one place from the others, so what was cut off before would be cut off again (`take_filter_take`).

A run of pushes is therefore known by what was pushed, and nothing else (`pushAll_eq_latest`). The
list that it ends with is one that decoding leaves as it is.
-/
import Recall.Proofs.Decode.Keyed

namespace Recall

namespace Selection

/-! ## 1. Cutting before and after -/

/-- Without an element, `n` places of a list that has no repeats are filled by the first `n + 1`. -/
theorem take_filter_take {α : Type} [BEq α] [LawfulBEq α] {q : α} : ∀ {n : Nat} {l : List α},
    l.Nodup → ((l.take (n + 1)).filter fun b => b != q).take n = (l.filter fun b => b != q).take n
  | _, [], _ => rfl
  | 0, _ :: _, _ => by rw [List.take_zero, List.take_zero]
  | n + 1, a :: r, h => by
      rw [List.nodup_cons] at h
      rw [List.take_succ_cons]
      by_cases ha : a = q
      · subst ha
        have hother : ∀ b ∈ r, (b != a) = true := fun b hb =>
          bne_iff_ne.mpr fun heq => h.1 (heq ▸ hb)
        have hother' : ∀ b ∈ r.take (n + 1), (b != a) = true := fun b hb =>
          hother b (List.mem_of_mem_take hb)
        have hself : (a != a) = false := by simp
        simp only [List.filter_cons, hself, Bool.false_eq_true, if_false,
          List.filter_eq_self.mpr hother, List.filter_eq_self.mpr hother', List.take_take,
          Nat.min_self]
      · have hstays : (a != q) = true := bne_iff_ne.mpr ha
        simp only [List.filter_cons, hstays, if_true, List.take_succ_cons, take_filter_take h.2]

/-! ## 2. One push -/

/-- The first `n` of some queries without repeats; the latest come first. -/
def latest (n : Nat) (queries : List String) : List String :=
  (Text.distinct queries).take n

/-- A query in front of the latest ones is the latest. -/
theorem latest_cons {n : Nat} (hn : 0 < n) (q : String) (queries : List String) :
    (q :: (latest n queries).filter fun b => b != q).take n = latest n (q :: queries) := by
  obtain ⟨m, rfl⟩ : ∃ m, n = m + 1 := ⟨n - 1, by omega⟩
  rw [latest, latest, Text.distinct, List.take_succ_cons, List.take_succ_cons,
    take_filter_take (Text.nodup_distinct queries)]
  rfl

theorem get_pushRecent_blank {value : String} (h : Text.isBlank value = true)
    (recent : List String) (limit : Int) : (pushRecent recent value limit).get recent = recent := by
  rw [pushRecent, if_pos h, Edit.get_unchanged]

/-- A text that is not blank comes in front of all queries so far. -/
theorem get_pushRecent_latest {limit : Int} (hlimit : 1 ≤ limit) {value : String}
    (h : Text.isBlank value = false) (queries : List String) :
    (pushRecent (latest limit.toNat queries) value limit).get (latest limit.toNat queries) =
      latest limit.toNat (Text.trim value :: queries) := by
  have hcut : ∀ l : List String, upTo limit l = l.take limit.toNat := fun l => if_pos (by omega)
  rw [pushRecent, if_neg (by rw [h]; decide), Edit.get_changed, hcut, latest_cons (by omega)]

/-! ## 3. A run of pushes -/

/-- The queries that typed texts ask for: those that are not blank, trimmed. -/
def asked (values : List String) : List String :=
  (values.filter fun value => !Text.isBlank value).map Text.trim

/-- The recent queries after texts were typed one behind the other. -/
def pushAll (limit : Int) (recent values : List String) : List String :=
  values.foldl (fun recent value => (pushRecent recent value limit).get recent) recent

theorem pushAll_cons (limit : Int) (recent : List String) (value : String) (rest : List String) :
    pushAll limit recent (value :: rest) =
      pushAll limit ((pushRecent recent value limit).get recent) rest :=
  rfl

/-- After a run the list is the latest of all that was asked for. -/
theorem pushAll_latest {limit : Int} (hlimit : 1 ≤ limit) : ∀ values queries : List String,
    pushAll limit (latest limit.toNat queries) values =
      latest limit.toNat ((asked values).reverse ++ queries)
  | [], _ => rfl
  | value :: rest, queries => by
      rw [pushAll_cons]
      cases hblank : Text.isBlank value with
      | true =>
        have hasked : asked (value :: rest) = asked rest := by simp [asked, hblank]
        rw [get_pushRecent_blank hblank, pushAll_latest hlimit rest, hasked]
      | false =>
        have hasked : asked (value :: rest) = Text.trim value :: asked rest := by
          simp [asked, hblank]
        rw [get_pushRecent_latest hlimit hblank, pushAll_latest hlimit rest, hasked,
          List.reverse_cons, List.append_assoc, List.singleton_append]

theorem trimmed_of_mem_asked {values : List String} {q : String} (h : q ∈ asked values) :
    Text.Trimmed q := by
  obtain ⟨value, hvalue, rfl⟩ := List.mem_map.mp h
  exact Text.trimmed_trim (by simpa using (List.mem_filter.mp hvalue).2)

/-- **Recent queries are the latest distinct ones.** From a list of distinct trimmed queries within
the limit, a run of pushes gives the first of what was pushed, the latest first, and of that list
behind it, without repeats; this has no repeats itself and is decoded as it is. -/
theorem pushAll_eq_latest {limit : Int} (hlimit : 1 ≤ limit) {start : List String}
    (hnodup : start.Nodup) (htrimmed : ∀ q ∈ start, Text.Trimmed q)
    (hlen : (start.length : Int) ≤ limit) (values : List String) :
    pushAll limit start values =
        (Text.distinct ((asked values).reverse ++ start)).take limit.toNat ∧
      (pushAll limit start values).Nodup ∧
      Decode.recent limit (Json.texts (pushAll limit start values)) = pushAll limit start values := by
  have hstart : latest limit.toNat start = start := by
    rw [latest, Text.distinct_eq_self hnodup, List.take_of_length_le (by omega)]
  have hrun : pushAll limit start values = latest limit.toNat ((asked values).reverse ++ start) := by
    rw [← pushAll_latest hlimit, hstart]
  have hsub : (pushAll limit start values).Sublist
      (Text.distinct ((asked values).reverse ++ start)) := hrun ▸ List.take_sublist _ _
  have hdistinct : (pushAll limit start values).Nodup := hsub.nodup (Text.nodup_distinct _)
  refine ⟨hrun, hdistinct, Decode.recent_texts (fun q hq => ?_) hdistinct ?_⟩
  · rcases List.mem_append.mp (Text.mem_distinct.mp (hsub.subset hq)) with hq | hq
    · exact trimmed_of_mem_asked (List.mem_reverse.mp hq)
    · exact htrimmed q hq
  · have hcut : (pushAll limit start values).length ≤ limit.toNat := by
      rw [hrun]
      exact List.length_take_le _ _
    omega

/-- Three places for a new query, an old one, a blank text, and one that had fallen off. -/
theorem pushAll_eq_latest_fallenOff :
    ["a", "b", "c"].Nodup ∧ (∀ q ∈ ["a", "b", "c"], Text.Trimmed q) ∧
      pushAll 3 ["a", "b", "c"] ["d", " b ", "  ", "c"] = ["c", "b", "d"] ∧
      Decode.recent 3 (Json.texts (pushAll 3 ["a", "b", "c"] ["d", " b ", "  ", "c"])) =
        pushAll 3 ["a", "b", "c"] ["d", " b ", "  ", "c"] := by
  have hnodup : ["a", "b", "c"].Nodup := by decide
  have htrimmed : ∀ q ∈ ["a", "b", "c"], Text.Trimmed q := by decide +kernel
  have hlimit : (1 : Int) ≤ 3 := by decide
  obtain ⟨hrun, -, hread⟩ := pushAll_eq_latest hlimit hnodup htrimmed (by decide)
    ["d", " b ", "  ", "c"]
  exact ⟨hnodup, htrimmed, hrun.trans (by decide +kernel), hread⟩

end Selection

end Recall
