/-
Recall.Proofs.Settings.Environment — what the environment makes of settings.

`overridden` is what variables are meant to do: one with a usable value sets its field, and any other
is ignored. The settings that are really made (`withEnvironment`) agree with it for the flag and for
the two numbers that no variable sets. For the other three fields a value is judged in two places. A
limit that is no integer sets nothing. A word that is no setting, and an integer that is no limit, do
set their member; such a member then reads as its default, and not as what the field was before. So
these values are ignored just where the field is at its default anyway (`environment_resets`).
-/
import Recall.Proofs.Json.Member
import Recall.Proofs.Settings.Basic

namespace Recall

/-! ## 1. Members that are set -/

namespace Json

/-- What a row of members, some of them missing, sets a key to: the last of them with the key
counts. -/
theorem field_foldl_put (key : String) (set : List (Option (String × Json)))
    (members : List (String × Json)) :
    field ((set.filterMap id).foldl (fun done (k, v) => put done k v) members) key =
      set.foldl (fun old m => match m with
        | some (k, v) => if k = key then v else old
        | none => old) (field members key) := by
  induction set generalizing members with
  | nil => rfl
  | cons m r ih =>
    cases m with
    | none => exact ih members
    | some m => exact (ih _).trans (by rw [field_put]; rfl)

end Json

namespace Settings

/-! ## 2. What variables set -/

section Variables

variable (env : List (String × String))

/-- The word that a variable sets, if it is one of a vocabulary. -/
def wordSet? (vocabulary : List String) (name : String) : Option String :=
  ((setting? name env).map wordOf).filter vocabulary.contains

/-- The limit that is set, if it is one. -/
def limitSet? : Option Int :=
  ((setting? limitVariable env).bind fun v => Chars.integer? v.toList).filter Saved.limits.contains

/-- The flag that is set. -/
def verbatimSet? : Option Bool :=
  (setting? verbatimVariable env).map fun v => switchedOn.contains (wordOf v)

/-- Settings with what the environment sets to something usable; the rest of it is ignored. -/
def overridden (s : Settings) : Settings :=
  { s with
    sortBy := (wordSet? env Saved.sortOrders sortVariable).getD s.sortBy
    window := (wordSet? env Saved.windows windowVariable).getD s.window
    limit := (limitSet? env).getD s.limit
    verbatim := (verbatimSet? env).getD s.verbatim }

/-- A variable is set to a word that is not in the vocabulary. -/
def Misspelt (vocabulary : List String) (name : String) : Prop :=
  ∃ v, setting? name env = some v ∧ wordOf v ∉ vocabulary

/-- The limit is set to an integer that is none of the limits. -/
def OffLimits : Prop :=
  ∃ v n, setting? limitVariable env = some v ∧ Chars.integer? v.toList = some n ∧ n ∉ Saved.limits

end Variables

variable {env : List (String × String)}

/-- A field is read of the variable's value if it sets one, and else of the field before. -/
theorem withEnvironment_members (s : Settings) (env : List (String × String)) :
    withEnvironment s.members env =
      { sortBy := Saved.sortOf (((setting? sortVariable env).map fun v => .str (wordOf v)).getD
          (.str s.sortBy))
        window := Saved.windowOf (((setting? windowVariable env).map fun v => .str (wordOf v)).getD
          (.str s.window))
        limit := Saved.limitOf ((((setting? limitVariable env).bind fun v =>
          Chars.integer? v.toList).map Json.int).getD (.int s.limit))
        verbatim := (verbatimSet? env).getD s.verbatim
        recentLimit := positiveOr 5 (.int s.recentLimit)
        topResults := positiveOr 3 (.int s.topResults) } := by
  rw [withEnvironment, overrides, ofMembers, verbatimSet?]
  simp only [Json.field_foldl_put, List.foldl_cons, List.foldl_nil]
  cases setting? sortVariable env <;> cases setting? windowVariable env <;>
    cases setting? verbatimVariable env <;> cases setting? limitVariable env with
    | none => simp [members, Json.field, Json.lookup?, isTrue]
    | some v =>
      cases hint : Chars.integer? v.toList <;>
        simp [hint, members, Json.field, Json.lookup?, isTrue]

/-! ## 3. Fields -/

/-- What is made of a field when bad values set it back: the default for a bad value, and what is meant
for any other. What is meant for a bad value is the field before, so it is made exactly if that was
the default anyway. -/
def SetBack {α : Type} (bad : Prop) (fallback before meant made : α) : Prop :=
  (bad → made = fallback) ∧ (¬ bad → made = meant) ∧ (made = meant ↔ (bad → before = fallback))

theorem SetBack.of {α : Type} {bad : Prop} {fallback before meant made : α}
    (hmeant : bad → meant = before) (hbad : bad → made = fallback) (hgood : ¬ bad → made = meant) :
    SetBack bad fallback before meant made := by
  refine ⟨hbad, hgood, ?_, ?_⟩
  · intro h hb
    rw [← hbad hb, h, hmeant hb]
  · intro h
    by_cases hb : bad
    · rw [hbad hb, hmeant hb, h hb]
    · exact hgood hb

/-- A word that is none of the vocabulary sets its field back. -/
theorem setBack_word (env : List (String × String)) (name fallback : String)
    {vocabulary : List String} {base : String} (hbase : base ∈ vocabulary) :
    SetBack (Misspelt env vocabulary name) fallback base
      ((wordSet? env vocabulary name).getD base)
      (Saved.wordOr vocabulary fallback
        (((setting? name env).map fun v => .str (wordOf v)).getD (.str base))) := by
  cases hv : setting? name env with
  | none =>
    have hnot : ¬ Misspelt env vocabulary name := by
      rintro ⟨v, h, -⟩
      cases hv.symm.trans h
    refine SetBack.of (fun h => absurd h hnot) (fun h => absurd h hnot) fun _ => ?_
    simp [wordSet?, hv, Saved.wordOr_str hbase]
  | some v =>
    have hbad : Misspelt env vocabulary name ↔ wordOf v ∉ vocabulary := by
      simp [Misspelt, hv]
    simp only [Option.map_some, Option.getD_some, wordOr_eq, hbad]
    refine SetBack.of (fun h => ?_) (fun h => if_neg h) fun h => ?_
    · simp [wordSet?, hv, Option.filter, h]
    · have hin := not_not.mp h
      simp [wordSet?, hv, Option.filter, hin]

/-- An integer that is no limit sets the limit back. -/
theorem setBack_limit (env : List (String × String)) {base : Int} (hbase : base ∈ Saved.limits) :
    SetBack (OffLimits env) 20 base ((limitSet? env).getD base)
      (Saved.limitOf ((((setting? limitVariable env).bind fun v =>
        Chars.integer? v.toList).map Json.int).getD (.int base))) := by
  cases hn : (setting? limitVariable env).bind fun v => Chars.integer? v.toList with
  | none =>
    have hnot : ¬ OffLimits env := by
      rintro ⟨v, n, hv, hint, -⟩
      rw [hv, Option.bind_some, hint] at hn
      cases hn
    refine SetBack.of (fun h => absurd h hnot) (fun h => absurd h hnot) fun _ => ?_
    simp [limitSet?, hn, Saved.limitOf_int hbase]
  | some n =>
    obtain ⟨v, hv, hint⟩ := Option.bind_eq_some_iff.mp hn
    have hbad : OffLimits env ↔ n ∉ Saved.limits := by
      simp [OffLimits, hv, hint]
    simp only [Option.map_some, Option.getD_some, limitOf_eq, hbad]
    refine SetBack.of (fun h => ?_) (fun h => if_neg h) fun h => ?_
    · simp [limitSet?, hn, Option.filter, h]
    · have hin := not_not.mp h
      simp [limitSet?, hn, Option.filter, hin]

/-! ## 4. All fields -/

theorem eq_iff {s t : Settings} : s = t ↔ s.sortBy = t.sortBy ∧ s.window = t.window ∧
    s.limit = t.limit ∧ s.verbatim = t.verbatim ∧ s.recentLimit = t.recentLimit ∧
    s.topResults = t.topResults := by
  cases s
  cases t
  simp

/-- **What the environment makes of valid settings.** A word that is no setting, or an integer that is
no limit, sets its field back to the default; any other value does what it is meant to do, which is
nothing for a limit that is no integer; the flag is set as it is meant to be, and the two numbers stay.
So the environment does what it is meant to do exactly when each field that is set back was at its
default before. -/
theorem environment_resets {s : Settings} (h : s.Valid) (env : List (String × String)) :
    let made := withEnvironment s.members env
    let meant := overridden env s
    SetBack (Misspelt env Saved.sortOrders sortVariable) "relevance" s.sortBy meant.sortBy
      made.sortBy ∧
    SetBack (Misspelt env Saved.windows windowVariable) "all" s.window meant.window made.window ∧
    SetBack (OffLimits env) 20 s.limit meant.limit made.limit ∧
    made.verbatim = meant.verbatim ∧ made.recentLimit = s.recentLimit ∧
    made.topResults = s.topResults ∧
    (made = meant ↔
      (Misspelt env Saved.sortOrders sortVariable → s.sortBy = "relevance") ∧
      (Misspelt env Saved.windows windowVariable → s.window = "all") ∧
      (OffLimits env → s.limit = 20)) := by
  obtain ⟨hsort, hwindow, hlimit, hrecent, htop⟩ := h
  have hsortBack := setBack_word env sortVariable "relevance" hsort
  have hwindowBack := setBack_word env windowVariable "all" hwindow
  have hlimitBack := setBack_limit env hlimit
  have hrecentSame : positiveOr 5 (.int s.recentLimit) = s.recentLimit := positiveOr_int 5 hrecent
  have htopSame : positiveOr 3 (.int s.topResults) = s.topResults := positiveOr_int 3 htop
  rw [withEnvironment_members, hrecentSame, htopSame]
  refine ⟨hsortBack, hwindowBack, hlimitBack, rfl, rfl, rfl, ?_⟩
  rw [eq_iff, ← hsortBack.2.2, ← hwindowBack.2.2, ← hlimitBack.2.2]
  exact ⟨fun h => ⟨h.1, h.2.1, h.2.2.1⟩, fun h => ⟨h.1, h.2.1, h.2.2, rfl, rfl, rfl⟩⟩

/-- An environment with a value of every kind: a word with blanks and capitals, a word that is no
window, a limit that is no integer, and a flag. -/
def mixedEnvironment : List (String × String) :=
  [(sortVariable, " Newest "), (windowVariable, "90d"), (limitVariable, "lots"),
    (verbatimVariable, "ON")]

theorem environment_resets_mixed :
    let s : Settings := { sortBy := "oldest", window := "7d", limit := 50, topResults := 9 }
    let made := withEnvironment s.members mixedEnvironment
    s.Valid ∧ Misspelt mixedEnvironment Saved.windows windowVariable ∧
      ¬ Misspelt mixedEnvironment Saved.sortOrders sortVariable ∧ ¬ OffLimits mixedEnvironment ∧
      made.sortBy = "newest" ∧ made.window = "all" ∧ made.limit = 50 ∧ made.verbatim = true ∧
      made.topResults = 9 ∧ made ≠ overridden mixedEnvironment s := by
  intro s made
  have hvalid : s.Valid := by decide
  obtain ⟨hsort, hwindow, hlimit, hflag, -, htop, hiff⟩ :=
    environment_resets hvalid mixedEnvironment
  have hbad : Misspelt mixedEnvironment Saved.windows windowVariable :=
    ⟨"90d", by decide +kernel, by decide +kernel⟩
  have hsortGood : ¬ Misspelt mixedEnvironment Saved.sortOrders sortVariable := by
    rintro ⟨v, hv, hout⟩
    have hvalue : setting? sortVariable mixedEnvironment = some " Newest " := by decide +kernel
    obtain rfl := Option.some.inj (hvalue.symm.trans hv)
    exact hout (by decide +kernel)
  have hlimitGood : ¬ OffLimits mixedEnvironment := by
    rintro ⟨v, n, hv, hint, -⟩
    have hvalue : setting? limitVariable mixedEnvironment = some "lots" := by decide +kernel
    obtain rfl := Option.some.inj (hvalue.symm.trans hv)
    have hnone : Chars.integer? "lots".toList = none := by decide +kernel
    rw [hnone] at hint
    cases hint
  refine ⟨hvalid, hbad, hsortGood, hlimitGood, ?_, hwindow.1 hbad, ?_, ?_, htop, ?_⟩
  · exact (hsort.2.1 hsortGood).trans (by decide +kernel)
  · exact (hlimit.2.1 hlimitGood).trans (by decide +kernel)
  · exact hflag.trans (by decide +kernel)
  · intro h
    exact absurd ((hiff.mp h).2.1 hbad) (by decide)

/-- An integer that is none of the limits is not ignored. -/
theorem environment_not_ignored :
    ¬ ∀ s : Settings, s.Valid → ∀ env, withEnvironment s.members env = overridden env s := by
  intro h
  have hvalid : Settings.Valid { limit := 50 } := by decide
  have hmade : (withEnvironment (members { limit := 50 }) [(limitVariable, "15")]).limit = 20 := by
    decide +kernel
  have hmeant : (overridden [(limitVariable, "15")] { limit := 50 }).limit = 50 := by
    decide +kernel
  rw [h _ hvalid, hmeant] at hmade
  cases hmade

end Settings

end Recall
