/-
Recall.Proofs.Time.Timestamp — a written timestamp is read back.

The written form is a date, the letter `T`, a clock with milliseconds and the letter `Z`: a stamp with
three digits behind the point and the capital letter as its ending (`text_eq`). So it is read as stamps
are.

What is written denotes the instant that it was written for (`parse?_of_format?`). So the written
form is a normal form (`normalize_of_written`), and normalizing gives nothing else
(`written_normalize`).
-/
import Recall.Proofs.Time.Stamp

namespace Recall

namespace Timestamp

open Chars (padded)

/-! ## 1. Texts -/

/-- The written form of a time of day in milliseconds. -/
def clockText (t : Nat) : List Char :=
  padded 2 (t / 3600000) ++ ':' :: (padded 2 (t / 60000 % 60) ++ ':' ::
    (padded 2 (t / 1000 % 60) ++ '.' :: padded 3 (t % 1000)))

/-- The written form of a date and a time of day. -/
def text (d : Date) (t : Nat) : List Char :=
  dateText d ++ 'T' :: clockText t ++ ['Z']

/-- The written form as a stamp. -/
def writtenStamp (d : Date) (t : Nat) : Stamp where
  date := d
  hour := t / 3600000
  minute := t / 60000 % 60
  second := t / 1000 % 60
  fraction := padded 3 (t % 1000)
  zone := .zulu true

theorem length_millis (t : Nat) : (padded 3 (t % 1000)).length = 3 :=
  Chars.length_padded (by decide) (Nat.mod_lt _ (by decide))

theorem text_eq (d : Date) (t : Nat) : text d t = (writtenStamp d t).text := by
  have hfraction : fractionText (padded 3 (t % 1000)) = '.' :: padded 3 (t % 1000) := by
    have hbound : t % 1000 < 10 ^ 3 := Nat.mod_lt _ (by decide)
    obtain ⟨c, cs, hmillis, -⟩ := Chars.exists_padded_eq_cons (by decide) hbound
    rw [hmillis]
    rfl
  simp only [text, clockText, Stamp.text, Stamp.front, Stamp.clock, writtenStamp, clockOf, hfraction,
    Zone.text, if_true]

theorem proper_writtenStamp {d : Date} (hd : d.isValid = true) {t : Nat} (ht : t < 86400000) :
    (writtenStamp d t).Proper where
  date := Date.bounds_of_isValid hd
  hour := by simp only [writtenStamp]; omega
  minute := by simp only [writtenStamp]; omega
  second := by simp only [writtenStamp]; omega
  digits := fun _ => Chars.isAsciiDigit_of_mem_padded
  places := by simp only [writtenStamp, length_millis]; omega
  zone := trivial

theorem parseChars?_text {d : Date} (hd : d.isValid = true) {t : Nat} (ht : t < 86400000) :
    parseChars? (text d t) = some (Int.fdiv (micros d.ordinal (t * 1000) 0) 1000) := by
  have hnone : ∀ c ∈ ([] : List Char), Chars.isBlank c = true := fun _ hc => by cases hc
  have hread := parseChars?_stamp (proper_writtenStamp hd ht) hnone hnone
  have hday : Date.ordinalOf? d.year d.month d.day = some d.ordinal := if_pos hd
  have hmicros : (writtenStamp d t).micros = t * 1000 := by
    simp only [Stamp.micros, Stamp.seconds, writtenStamp, microsOf, Chars.ofDigits_padded,
      length_millis]
    change (t / 3600000 * 3600 + t / 60000 % 60 * 60 + t / 1000 % 60) * 1000000 +
      t % 1000 * 1000 = t * 1000
    omega
  rw [List.nil_append, List.append_nil, ← text_eq, hmicros] at hread
  rw [hread]
  simp [writtenStamp, hday, Zone.seconds]

/-! ## 2. Instants -/

/-- An instant that can be written is a time of one of the days that have a date. -/
theorem exists_of_format?_eq_some {ms : Int} {s : String} (h : format? ms = some s) :
    ∃ n t : Nat, 0 < n ∧ n ≤ Date.lastOrdinal ∧ t < 86400000 ∧
      micros n (t * 1000) 0 = ms * 1000 ∧ s.toList = text (Date.ofOrdinal n) t := by
  rw [format?] at h
  split at h
  · rename_i hrange
    have hday : Int.fdiv ms 86400000 = ms / 86400000 := Int.fdiv_eq_ediv_of_nonneg ms (by decide)
    rw [least, greatest] at hrange
    simp only [hday, Option.some.injEq] at h
    refine ⟨(ms / 86400000 + (Date.epochOrdinal : Int)).toNat,
      (ms - ms / 86400000 * 86400000).toNat, ?_, ?_, ?_, ?_, ?_⟩
    · rw [Date.epochOrdinal]
      omega
    · rw [Date.epochOrdinal, Date.lastOrdinal]
      omega
    · omega
    · rw [micros, Date.epochOrdinal]
      omega
    · rw [← h, String.toList_ofList]
      simp only [text, dateText, clockText, List.append_assoc, List.cons_append]
  · cases h

/-- What is written denotes the instant that it was written for. -/
theorem parse?_of_format? {ms : Int} {s : String} (h : format? ms = some s) :
    parse? s = some ms := by
  obtain ⟨n, t, hn, hlast, ht, hms, htext⟩ := exists_of_format?_eq_some h
  rw [parse?, htext, parseChars?_text (Date.isValid_ofOrdinal hn hlast) ht, Date.ordinal_ofOrdinal hn,
    hms, Int.mul_fdiv_cancel ms (by decide)]

/-! ## 3. The written form -/

/-- A text is the written form of an instant. -/
def Written (s : String) : Prop := ∃ ms, format? ms = some s

/-- The written form is a normal form. -/
theorem normalize_of_written {s : String} (h : Written s) (fallback : String) :
    normalize (some s) fallback = s := by
  obtain ⟨ms, hms⟩ := h
  rw [normalize, Option.bind_some, parse?_of_format? hms, Option.bind_some, hms, Option.getD_some]

/-- Normalizing gives written forms, as long as it falls back on one. -/
theorem written_normalize {fallback : String} (h : Written fallback) (v : Option String) :
    Written (normalize v fallback) := by
  rw [normalize]
  cases hv : (v.bind parse?).bind format? with
  | none => exact h
  | some s =>
    obtain ⟨ms, -, hms⟩ := Option.bind_eq_some_iff.mp hv
    exact ⟨ms, hms⟩

end Timestamp

end Recall
