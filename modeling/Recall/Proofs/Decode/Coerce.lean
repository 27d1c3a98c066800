/-
Recall.Proofs.Decode.Coerce — what reading one stored field can give.

Whatever stands in a field, what is read of it is in a form of its own: a text that is kept is not
blank, a trimmed one has no blanks at its ends, a word is in its vocabulary, a list of texts has no
repeats, an amount is not negative, a number lies between its bounds, and a timestamp is written as
timestamps are. Some of these forms are read as they are (`text?_str`, `trimmed?_str`).
-/
import Recall.Decode.Coerce
import Recall.Proofs.Query.Operator
import Recall.Proofs.Time.Timestamp

namespace Recall

/-! ## 1. Texts -/

namespace Text

theorem trim_trim (s : String) : trim (trim s) = trim s := by
  apply String.toList_injective
  simp [Chars.trim_trim]

theorem isBlank_of_trimmed {s : String} (h : Trimmed s) : isBlank s = false := by
  refine Bool.eq_false_iff.mpr fun hblank => h.1 ?_
  rw [← h.2, trim_eq_empty_iff.mpr hblank]

theorem trimmed_trim {s : String} (h : isBlank s = false) : Trimmed (trim s) := by
  refine ⟨fun hempty => ?_, trim_trim s⟩
  rw [trim_eq_empty_iff.mp hempty] at h
  exact absurd h (by decide)

/-- What is left of a text without its outer blanks is trimmed, or nothing is left. -/
theorem trimmed_trim_of_ne {s : String} (h : trim s ≠ "") : Trimmed (trim s) :=
  ⟨h, trim_trim s⟩

end Text

namespace Decode

theorem text?_str {s : String} (h : Text.isBlank s = false) : text? (.str s) = some s := by
  simp [text?, Json.str?, Option.filter, h]

theorem isBlank_of_text? {j : Json} {s : String} (h : text? j = some s) : Text.isBlank s = false := by
  simpa using (Option.filter_eq_some_iff.mp h).2

theorem trimmed?_str {s : String} (h : Text.Trimmed s) : trimmed? (.str s) = some s := by
  rw [trimmed?, text?_str (Text.isBlank_of_trimmed h), Option.map_some, h.2]

theorem trimmed_of_trimmed? {j : Json} {s : String} (h : trimmed? j = some s) : Text.Trimmed s := by
  obtain ⟨t, ht, rfl⟩ := Option.map_eq_some_iff.mp h
  exact Text.trimmed_trim (isBlank_of_text? ht)

/-- A word is in its vocabulary as long as the default is. -/
theorem choice_mem {vocabulary : List String} {fallback : String} (h : fallback ∈ vocabulary)
    (j : Json) : choice vocabulary fallback j ∈ vocabulary := by
  rw [choice]
  cases hword : j.str?.filter vocabulary.contains with
  | none => exact h
  | some v => simpa using (Option.filter_eq_some_iff.mp hword).2

theorem trimmed_of_mem_textList {j : Json} {s : String} (h : s ∈ textList j) : Text.Trimmed s := by
  cases j with
  | arr items =>
    obtain ⟨item, -, hitem⟩ := List.mem_filterMap.mp (Text.mem_distinct.mp h)
    exact trimmed_of_trimmed? hitem
  | _ => cases h

theorem nodup_textList (j : Json) : (textList j).Nodup := by
  cases j with
  | arr items => exact Text.nodup_distinct _
  | _ => exact List.nodup_nil

/-! ## 2. Numbers and timestamps -/

theorem amount_nonneg (j : Json) : 0 ≤ amount j := by
  simp only [amount]
  split <;> split <;> omega

theorem bounds_of_mem_bounded? {low high n : Int} {j : Json} (h : n ∈ bounded? low high j) :
    low ≤ n ∧ n ≤ high := by
  cases j with
  | int m =>
    simp only [bounded?, Option.mem_def, Option.ite_none_right_eq_some, Option.some.injEq] at h
    obtain ⟨hbounds, rfl⟩ := h
    exact hbounds
  | _ => cases h

theorem written_timestamp {fallback : String} (h : Timestamp.Written fallback) (j : Json) :
    Timestamp.Written (timestamp j fallback) :=
  Timestamp.written_normalize h j.str?

end Decode

end Recall
