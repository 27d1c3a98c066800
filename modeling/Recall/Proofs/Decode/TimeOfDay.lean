/-
Recall.Proofs.Decode.TimeOfDay — a time of day is read as it is.

What is read of a time of day has the hour written anew, in two ASCII digits, and the two digits of
the minutes as they were, of whatever script (`TimeOfDay`). So the text that is read need not be the
text that is stored, but no digit of it is blank and every one is a digit, and read once more it
gives itself (`clock_str`). The default is such a text, too.
-/
import Recall.Proofs.Decode.Clock

namespace Recall

namespace Chars

/-! ## 1. Digits -/

/-- No digit of any script is blank. -/
theorem isBlank_of_digitValue? {c : Char} (h : (digitValue? c).isSome = true) :
    isBlank c = false := by
  rw [digitValue?, Option.isSome_map, List.find?_isSome] at h
  obtain ⟨first, hfirst, hrow⟩ := h
  have hclear : ∀ z ∈ digitZeros, clearOf blankRanges z (z + 9) = true := by decide +kernel
  rw [Bool.and_eq_true, decide_eq_true_eq, decide_eq_true_eq] at hrow
  rw [isBlank_eq_inRanges]
  exact inRanges_eq_false (hclear first hfirst) hrow.1 (by omega)

theorem digitValue?_of_isAsciiDigit {c : Char} (h : isAsciiDigit c = true) :
    digitValue? c = some (c.toNat - '0'.toNat) :=
  forall_isAsciiDigit (P := fun c => digitValue? c = some (c.toNat - '0'.toNat)) (by decide +kernel) h

/-- A padded number is made of digits, and they denote it. -/
theorem isNumber_padded {w n : Nat} (hw : 0 < w) (hn : n < 10 ^ w) (hmax : w ≤ maxDigits) :
    IsNumber (padded w n) ∧ ofDigits ((padded w n).filterMap digitValue?) = n := by
  have hdigit : ∀ c ∈ padded w n, digitValue? c = some (c.toNat - '0'.toNat) := fun c hc =>
    digitValue?_of_isAsciiDigit (isAsciiDigit_of_mem_padded hc)
  refine ⟨⟨(length_padded hw hn).symm ▸ hmax, fun c hc => by rw [hdigit c hc]; rfl⟩, ?_⟩
  rw [List.filterMap_congr hdigit, List.filterMap_eq_map', ofDigits_padded]

end Chars

namespace Decode

/-! ## 2. Times of day -/

theorem allDigitSigns_of_isSome {cs : List Char} (hne : cs ≠ [])
    (h : ∀ c ∈ cs, (Chars.digitValue? c).isSome = true) : allDigitSigns cs = true := by
  rw [allDigitSigns, Bool.and_eq_true, Bool.not_eq_true', List.isEmpty_eq_false_iff, List.all_eq_true]
  exact ⟨hne, fun c hc => by rw [Chars.isDigitSign, h c hc, Bool.true_or]⟩

/-- A time of day as it is read: two digits for the hour, a colon, and two for the minutes. -/
structure TimeOfDay (s : String) (hour : Nat) (minutes : List Char) : Prop where
  text : s.toList = Chars.padded 2 hour ++ ':' :: minutes
  hour_le : hour ≤ 23
  isNumber : Chars.IsNumber minutes
  twoDigits : minutes.length = 2
  minute_le : Chars.ofDigits (minutes.filterMap Chars.digitValue?) ≤ 59

theorem timeOfDay_defaultClock : TimeOfDay defaultClock 9 ['0', '0'] := by
  obtain ⟨hnumber, hvalue⟩ : Chars.IsNumber ['0', '0'] ∧
      Chars.ofDigits (['0', '0'].filterMap Chars.digitValue?) = 0 :=
    Chars.isNumber_padded (w := 2) (n := 0) (by decide) (by decide) (by decide)
  exact ⟨by decide +kernel, by decide, hnumber, rfl, hvalue ▸ by decide⟩

/-- A text `h:mm` that names a time of day: decimal digits of any script on both sides of a colon, and
maybe blanks around. -/
structure NamesTime (s : String) (hours minutes : List Char) : Prop where
  text : Chars.trim s.toList = hours ++ ':' :: minutes
  hours_ne_nil : hours ≠ []
  hourDigits : ∀ c ∈ hours, (Chars.digitValue? c).isSome = true
  minuteDigits : ∀ c ∈ minutes, (Chars.digitValue? c).isSome = true
  twoMinutes : minutes.length = 2
  hour_le : Chars.ofDigits (hours.filterMap Chars.digitValue?) ≤ 23
  minute_le : Chars.ofDigits (minutes.filterMap Chars.digitValue?) ≤ 59

theorem NamesTime.form {s : String} {hours minutes : List Char} (h : NamesTime s hours minutes) :
    ClockForm s hours minutes where
  text := h.text
  hourSigns := allDigitSigns_of_isSome h.hours_ne_nil h.hourDigits
  minuteSigns := allDigitSigns_of_isSome (by simp [← List.length_pos_iff, h.twoMinutes]) h.minuteDigits
  twoMinutes := h.twoMinutes

/-- Where a text of the form is read, it is read as the time that it names, or as the default if it
names none. -/
theorem clock_of_form_eq_ok {s t : String} {hours minutes : List Char} (h : ClockForm s hours minutes)
    (ht : clock (.str s) = .ok t) :
    (NamesTime s hours minutes ∧
      TimeOfDay t (Chars.ofDigits (hours.filterMap Chars.digitValue?)) minutes) ∨
    (¬ NamesTime s hours minutes ∧ t = defaultClock) := by
  rw [clock_of_form h] at ht
  cases hn : clockNumber s hours with
  | error e =>
    rw [hn] at ht
    cases ht
  | ok n =>
    obtain ⟨hhours, rfl⟩ := (clockNumber_eq_ok_iff h.hourSigns).mp hn
    rw [hn] at ht
    simp only [Except.bind] at ht
    split at ht
    · rename_i hlate
      exact .inr ⟨fun hnames => Nat.not_le.mpr hlate hnames.hour_le, (Except.ok.inj ht).symm⟩
    · rename_i hearly
      cases hm : clockNumber s minutes with
      | error e =>
        rw [hm] at ht
        cases ht
      | ok m =>
        obtain ⟨hminutes, rfl⟩ := (clockNumber_eq_ok_iff h.minuteSigns).mp hm
        rw [hm] at ht
        simp only at ht
        split at ht
        · rename_i hpast
          exact .inr ⟨fun hnames => Nat.not_le.mpr hpast hnames.minute_le, (Except.ok.inj ht).symm⟩
        · rename_i hbefore
          obtain rfl := Except.ok.inj ht
          have hhour := Nat.not_lt.mp hearly
          have hminute := Nat.not_lt.mp hbefore
          exact .inl ⟨⟨h.text, (plain_of_allDigitSigns h.hourSigns).1, hhours.2, hminutes.2,
            h.twoMinutes, hhour, hminute⟩,
            ⟨String.toList_ofList, hhour, hminutes, h.twoMinutes, hminute⟩⟩

/-- What is read is the time that a text names, and the default for a text that names none and for
what is no text. -/
theorem clock_eq_ok {j : Json} {t : String} (h : clock j = .ok t) :
    (∃ s hours minutes, j = .str s ∧ NamesTime s hours minutes ∧
      TimeOfDay t (Chars.ofDigits (hours.filterMap Chars.digitValue?)) minutes) ∨
    ((∀ s hours minutes, j = .str s → ¬ NamesTime s hours minutes) ∧ t = defaultClock) := by
  cases j with
  | str s =>
    by_cases hform : ∃ hours minutes, ClockForm s hours minutes
    · obtain ⟨hours, minutes, hs⟩ := hform
      rcases clock_of_form_eq_ok hs h with ⟨hnames, ht⟩ | ⟨hnot, rfl⟩
      · exact .inl ⟨s, hours, minutes, rfl, hnames, ht⟩
      · refine .inr ⟨?_, rfl⟩
        rintro s' hours' minutes' ⟨⟩ hnames
        obtain rfl : hours' = hours := hnames.form.cut.1.symm.trans hs.cut.1
        obtain rfl := (List.cons.inj (hnames.form.cut.2.symm.trans hs.cut.2)).2
        exact hnot hnames
    · refine .inr ⟨?_, ?_⟩
      · rintro s' hours minutes ⟨⟩ hnames
        exact hform ⟨hours, minutes, hnames.form⟩
      · rw [clock_of_not_form fun hours minutes hs => hform ⟨hours, minutes, hs⟩] at h
        exact (Except.ok.inj h).symm
  | _ => exact .inr ⟨fun _ _ _ => nofun, (Except.ok.inj h).symm⟩

/-- Whatever is read of a time of day is one. -/
theorem exists_timeOfDay {j : Json} {t : String} (h : clock j = .ok t) :
    ∃ hour minutes, TimeOfDay t hour minutes := by
  rcases clock_eq_ok h with ⟨_, _, minutes, -, -, ht⟩ | ⟨-, rfl⟩
  · exact ⟨_, minutes, ht⟩
  · exact ⟨9, _, timeOfDay_defaultClock⟩

/-- A time of day is read as it is. -/
theorem clock_str {t : String} {hour : Nat} {minutes : List Char} (h : TimeOfDay t hour minutes) :
    clock (.str t) = .ok t := by
  have hhour : hour < 10 ^ 2 := by have := h.hour_le; omega
  obtain ⟨hnumber, hvalue⟩ := Chars.isNumber_padded (w := 2) (by decide) hhour (by decide)
  have htwo : (Chars.padded 2 hour).length = 2 := Chars.length_padded (by decide) hhour
  have hfilled : ∀ c ∈ t.toList, Chars.isBlank c = false := by
    rw [h.text, List.forall_mem_append, List.forall_mem_cons]
    exact ⟨fun c hc => Chars.isBlank_of_digitValue? (hnumber.2 c hc), by decide,
      fun c hc => Chars.isBlank_of_digitValue? (h.isNumber.2 c hc)⟩
  have hform : ClockForm t (Chars.padded 2 hour) minutes := by
    refine ⟨?_, allDigitSigns_of_isSome (by simp [← List.length_pos_iff, htwo]) hnumber.2,
      allDigitSigns_of_isSome (by simp [← List.length_pos_iff, h.twoDigits]) h.isNumber.2, h.twoDigits⟩
    rw [← h.text]
    exact Chars.strip_eq_self_iff.mpr ⟨fun c hc => hfilled c (List.mem_of_mem_head? hc),
      fun c hc => hfilled c (List.mem_of_mem_getLast? hc)⟩
  rw [clock_of_form hform, (clockNumber_eq_ok_iff hform.hourSigns).mpr ⟨hnumber, hvalue⟩,
    (clockNumber_eq_ok_iff hform.minuteSigns).mpr ⟨h.isNumber, rfl⟩]
  simp only [Except.bind, if_neg (Nat.not_lt.mpr h.hour_le), if_neg (Nat.not_lt.mpr h.minute_le)]
  rw [← h.text, String.ofList_toList]

theorem TimeOfDay.length_eq {t : String} {hour : Nat} {minutes : List Char}
    (h : TimeOfDay t hour minutes) : t.toList.length = 5 := by
  have hhour : hour < 10 ^ 2 := by have := h.hour_le; omega
  rw [h.text, List.length_append, List.length_cons, Chars.length_padded (by decide) hhour,
    h.twoDigits]

/-- A time of day is in ASCII if its minutes are. -/
theorem TimeOfDay.ascii_iff {t : String} {hour : Nat} {minutes : List Char}
    (h : TimeOfDay t hour minutes) :
    (∀ c ∈ t.toList, c.toNat < 0x80) ↔ ∀ c ∈ minutes, c.toNat < 0x80 := by
  have hhour : ∀ c ∈ Chars.padded 2 hour, c.toNat < 0x80 :=
    Chars.forall_mem_padded (fun c hc => by have := Chars.isAsciiDigit_iff.mp hc; omega) 2 hour
  rw [h.text, List.forall_mem_append, List.forall_mem_cons]
  exact ⟨fun hall => hall.2.2, fun hminutes => ⟨hhour, by decide, hminutes⟩⟩

end Decode

end Recall
