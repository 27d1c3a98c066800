/-
Recall.Proofs.Saved.Fingerprint — the fingerprint of a saved search stands for its settings.

A fingerprint is the text of an object with the six settings of a search, and a search has one unless
its limit has too many digits to be written (`exists_fingerprint_iff`). As written values can be told
apart, two searches have one fingerprint if and only if their settings are the same
(`fingerprint_eq_iff`), whatever characters are in them.

So looking for a fingerprint in a list of searches is looking for the settings. The first search that
has them is found, if no search that is looked at on the way is without a fingerprint
(`fingerprint_stands_for_settings`).
-/
import Recall.Proofs.Json.Writer
import Recall.Saved.Basic

namespace Recall

namespace Saved

/-! ## 1. Fingerprints -/

/-- Two searches find the same: they agree on all settings, and on the query up to the blanks around
it. -/
def SameSettings (s t : SavedSearch) : Prop :=
  Text.trim s.query = Text.trim t.query ∧ s.filter = t.filter ∧ s.sortBy = t.sortBy ∧
    s.window = t.window ∧ s.limit = t.limit ∧ s.verbatim = t.verbatim

instance (s t : SavedSearch) : Decidable (SameSettings s t) :=
  inferInstanceAs (Decidable (_ ∧ _))

/-- The limit of a search has few enough digits to be written. -/
def FewDigits (s : SavedSearch) : Prop :=
  (Chars.digits s.limit.natAbs).length ≤ Chars.maxDigits

instance (s : SavedSearch) : Decidable (FewDigits s) :=
  inferInstanceAs (Decidable (_ ≤ _))

/-- The settings of a search as a value. -/
def settings (s : SavedSearch) : Json :=
  .obj [
    ("filter", .str s.filter), ("query", .str (Text.trim s.query)), ("resultLimit", .int s.limit),
    ("sortBy", .str s.sortBy), ("timelineWindow", .str s.window), ("verbatim", .bool s.verbatim)]

theorem fingerprint_eq_write (s : SavedSearch) :
    fingerprint s = Json.tryWrite Json.plainLayout (settings s) := rfl

theorem isWritable_settings_iff {s : SavedSearch} :
    Json.isWritable (settings s) = true ↔ FewDigits s := by
  rw [settings, Json.isWritable, Json.areWritableMembers_iff]
  simp [Json.isWritable, FewDigits]

theorem floatFree_settings (s : SavedSearch) : Json.FloatFree (settings s) := by
  refine .obj ?_
  simp only [List.mem_cons, List.not_mem_nil, or_false, forall_eq_or_imp, forall_eq]
  exact ⟨.str _, .str _, .int _, .str _, .str _, .bool _⟩

theorem settings_eq_iff {s t : SavedSearch} : settings s = settings t ↔ SameSettings s t := by
  simp only [settings, SameSettings, Json.obj.injEq, List.cons.injEq, Prod.mk.injEq, Json.str.injEq,
    Json.int.injEq, Json.bool.injEq, true_and, and_true]
  constructor
  · rintro ⟨hfilter, hquery, hlimit, hsort, hwindow, hverbatim⟩
    exact ⟨hquery, hfilter, hsort, hwindow, hlimit, hverbatim⟩
  · rintro ⟨hquery, hfilter, hsort, hwindow, hlimit, hverbatim⟩
    exact ⟨hfilter, hquery, hlimit, hsort, hwindow, hverbatim⟩

theorem fingerprint_eq_ok_iff {s : SavedSearch} {print : String} :
    fingerprint s = .ok print ↔
      FewDigits s ∧ Json.write Json.plainLayout (settings s) = print := by
  rw [fingerprint_eq_write, Json.tryWrite_eq_ok_iff, isWritable_settings_iff]

/-- A search has a fingerprint unless its limit is too long. -/
theorem exists_fingerprint_iff {s : SavedSearch} :
    (∃ print, fingerprint s = .ok print) ↔ FewDigits s := by
  simp only [fingerprint_eq_ok_iff, exists_and_left, exists_eq', and_true]

theorem fingerprint_eq_error_iff {s : SavedSearch} :
    fingerprint s = .error .numberTooLong ↔ ¬ FewDigits s := by
  rw [← exists_fingerprint_iff]
  cases fingerprint s with
  | ok print => simp
  | error e => cases e; simp

theorem SameSettings.fewDigits_iff {s t : SavedSearch} (h : SameSettings s t) :
    FewDigits s ↔ FewDigits t := by
  obtain ⟨-, -, -, -, hlimit, -⟩ := h
  rw [FewDigits, FewDigits, hlimit]

/-- Searches with one fingerprint are those with the same settings. -/
theorem fingerprint_eq_iff {s t : SavedSearch} {print : String} (ht : fingerprint t = .ok print) :
    fingerprint s = .ok print ↔ SameSettings s t := by
  obtain ⟨hdigits, rfl⟩ := fingerprint_eq_ok_iff.mp ht
  rw [fingerprint_eq_ok_iff, Json.write_eq_iff rfl rfl (floatFree_settings s) (floatFree_settings t),
    settings_eq_iff]
  exact and_iff_right_of_imp fun hsame => hsame.fewDigits_iff.mpr hdigits

/-! ## 2. Looking for a fingerprint -/

/-- A search is passed on the way to another: it has a fingerprint and other settings. -/
def Passed (c s : SavedSearch) : Prop :=
  FewDigits s ∧ ¬ SameSettings s c

section Looking

variable {c : SavedSearch} {print : String} (hc : fingerprint c = .ok print)
include hc

theorem withFingerprint?_same {s : SavedSearch} (h : SameSettings s c) (r : List SavedSearch) :
    withFingerprint? print (s :: r) = .ok (some s) := by
  rw [withFingerprint?, (fingerprint_eq_iff hc).mpr h]
  simp [bind, Except.bind, pure, Except.pure]

theorem withFingerprint?_passed {s : SavedSearch} (h : Passed c s) (r : List SavedSearch) :
    withFingerprint? print (s :: r) = withFingerprint? print r := by
  obtain ⟨own, hown⟩ := exists_fingerprint_iff.mpr h.1
  have hne : own ≠ print := by
    rintro rfl
    exact h.2 ((fingerprint_eq_iff hc).mp hown)
  rw [withFingerprint?, hown]
  simp [bind, Except.bind, hne]

omit hc in
theorem withFingerprint?_long {s : SavedSearch} (h : ¬ FewDigits s) (r : List SavedSearch) :
    withFingerprint? print (s :: r) = .error .numberTooLong := by
  rw [withFingerprint?, fingerprint_eq_error_iff.mpr h]
  rfl

/-- Searches that are passed make no difference. -/
theorem withFingerprint?_append {before : List SavedSearch} (h : ∀ t ∈ before, Passed c t)
    (r : List SavedSearch) : withFingerprint? print (before ++ r) = withFingerprint? print r := by
  induction before with
  | nil => rfl
  | cons t before ih =>
    rw [List.forall_mem_cons] at h
    rw [List.cons_append, withFingerprint?_passed hc h.1, ih h.2]

/-- Looking comes to an end at the first search that is not passed, or at the end of the list. -/
theorem withFingerprint?_cases (searches : List SavedSearch) :
    (withFingerprint? print searches = .ok none ∧ ∀ t ∈ searches, Passed c t) ∨
      ∃ before s behind, searches = before ++ s :: behind ∧ (∀ t ∈ before, Passed c t) ∧
        (withFingerprint? print searches = .ok (some s) ∧ SameSettings s c ∨
          withFingerprint? print searches = .error .numberTooLong ∧ ¬ FewDigits s) := by
  induction searches with
  | nil => exact Or.inl ⟨rfl, List.forall_mem_nil _⟩
  | cons s r ih =>
    by_cases hpassed : Passed c s
    · rw [withFingerprint?_passed hc hpassed]
      rcases ih with ⟨hnone, hall⟩ | ⟨before, t, behind, rfl, hbefore, hend⟩
      · exact Or.inl ⟨hnone, List.forall_mem_cons.mpr ⟨hpassed, hall⟩⟩
      · exact Or.inr ⟨s :: before, t, behind, rfl, List.forall_mem_cons.mpr ⟨hpassed, hbefore⟩, hend⟩
    · refine Or.inr ⟨[], s, r, rfl, List.forall_mem_nil _, ?_⟩
      by_cases hdigits : FewDigits s
      · have hsame : SameSettings s c := by_contra fun hother => hpassed ⟨hdigits, hother⟩
        exact Or.inl ⟨withFingerprint?_same hc hsame r, hsame⟩
      · exact Or.inr ⟨withFingerprint?_long hdigits r, hdigits⟩

theorem withFingerprint?_eq_some_iff {searches : List SavedSearch} {s : SavedSearch} :
    withFingerprint? print searches = .ok (some s) ↔ SameSettings s c ∧
      ∃ before behind, searches = before ++ s :: behind ∧ ∀ t ∈ before, Passed c t := by
  constructor
  · intro h
    rcases withFingerprint?_cases hc searches with ⟨hnone, -⟩ |
      ⟨before, t, behind, hsplit, hbefore, ⟨hfound, hsame⟩ | ⟨herror, -⟩⟩
    · rw [h] at hnone
      cases hnone
    · obtain rfl : s = t := by simpa [h] using hfound
      exact ⟨hsame, before, behind, hsplit, hbefore⟩
    · rw [h] at herror
      cases herror
  · rintro ⟨hsame, before, behind, rfl, hbefore⟩
    rw [withFingerprint?_append hc hbefore, withFingerprint?_same hc hsame]

theorem withFingerprint?_eq_none_iff {searches : List SavedSearch} :
    withFingerprint? print searches = .ok none ↔ ∀ t ∈ searches, Passed c t := by
  constructor
  · intro h
    rcases withFingerprint?_cases hc searches with ⟨-, hall⟩ |
      ⟨before, t, behind, -, -, ⟨hfound, -⟩ | ⟨herror, -⟩⟩
    · exact hall
    · rw [h] at hfound
      cases hfound
    · rw [h] at herror
      cases herror
  · intro h
    have hend := withFingerprint?_append hc h []
    rw [List.append_nil] at hend
    exact hend

theorem withFingerprint?_eq_error_iff {searches : List SavedSearch} :
    withFingerprint? print searches = .error .numberTooLong ↔
      ∃ before s behind, searches = before ++ s :: behind ∧ ¬ FewDigits s ∧
        ∀ t ∈ before, Passed c t := by
  constructor
  · intro h
    rcases withFingerprint?_cases hc searches with ⟨hnone, -⟩ |
      ⟨before, s, behind, hsplit, hbefore, ⟨hfound, -⟩ | ⟨-, hlong⟩⟩
    · rw [h] at hnone
      cases hnone
    · rw [h] at hfound
      cases hfound
    · exact ⟨before, s, behind, hsplit, hlong, hbefore⟩
  · rintro ⟨before, s, behind, rfl, hlong, hbefore⟩
    rw [withFingerprint?_append hc hbefore, withFingerprint?_long hlong]

end Looking

/-! ## 3. Duplicates -/

theorem findDuplicate?_eq {c : SavedSearch} {print : String} (hc : fingerprint c = .ok print)
    (searches : List SavedSearch) :
    findDuplicate? searches c = withFingerprint? print searches := by
  rw [findDuplicate?, hc]
  rfl

theorem findDuplicate?_long {c : SavedSearch} (hc : ¬ FewDigits c) (searches : List SavedSearch) :
    findDuplicate? searches c = .error .numberTooLong := by
  rw [findDuplicate?, fingerprint_eq_error_iff.mpr hc]
  rfl

/-- Quotes, backslashes and what stands behind them cannot make one search look like another. -/
example : fingerprint { id := "a", name := "n", query := "x\", \"resultLimit\": 1" } ≠
    fingerprint { id := "a", name := "n", query := "x" } := by
  intro h
  obtain ⟨print, hprint⟩ := exists_fingerprint_iff.mpr
    (show FewDigits { id := "a", name := "n", query := "x" } by decide)
  exact absurd ((fingerprint_eq_iff hprint).mp (h.trans hprint)) (by decide)

/-- A search whose limit has one digit too many. -/
def endless : SavedSearch :=
  { id := "a", name := "n", limit := ((10 ^ Chars.maxDigits : Nat) : Int) }

theorem not_fewDigits_endless : ¬ FewDigits endless := by
  rw [FewDigits, endless, Int.natAbs_natCast]
  exact Nat.not_le.mpr Chars.maxDigits_lt_length_digits

end Saved

end Recall
