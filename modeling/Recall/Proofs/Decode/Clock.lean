/-
Recall.Proofs.Decode.Clock — the one field that can keep records from being read.

Every field has a default for what cannot be read, but a time of day has one only for texts of
another form. A text of the right form, digit signs on both sides of a colon and two of them behind
it (`ClockForm`), is read as two numbers, and digit signs need not make a number: a superscript is a
digit sign and no digit, and there may be more digits than are read. Minutes come last, so they do
not matter where the hours are past 23. These texts are the unreadable ones (`Unreadable`), and
there are no others (`clock_eq_error_iff`).

So a list of tasks is read if and only if no entry that would become a task has an unreadable time
(`tasks_returns_iff`); one such entry is enough for all of them to be lost.
-/
import Recall.Proofs.Decode.Entries

namespace Recall

namespace Chars

/-! ## 1. Numbers -/

/-- Digit signs that make a number: each is a digit of some script, and there are not too many. -/
def IsNumber (cs : List Char) : Prop :=
  cs.length ≤ maxDigits ∧ ∀ c ∈ cs, (digitValue? c).isSome = true

/-- Without underscores the digits of a text are its characters. -/
theorem underscored?_eq_some_iff {cs : List Char} {ds : List Nat} (hne : cs ≠ [])
    (hplain : '_' ∉ cs) : underscored? cs = some ds ↔ cs.map digitValue? = ds.map some := by
  fun_induction underscored? cs generalizing ds with
  | case1 => exact absurd rfl hne
  | case2 c =>
    cases ds with
    | nil => simp
    | cons d rest => cases rest <;> simp
  | case3 c r ih => simp at hplain
  | case4 c d r hd ih =>
    have ih' : ∀ rest : List Nat, underscored? (d :: r) = some rest ↔
        (d :: r).map digitValue? = rest.map some :=
      fun rest => ih (List.cons_ne_nil d r) (by simp_all)
    cases ds with
    | nil => simp [Option.bind_eq_some_iff]
    | cons n rest => simp [Option.bind_eq_some_iff, ih']

theorem map_digitValue? {cs : List Char} (h : ∀ c ∈ cs, (digitValue? c).isSome = true) :
    cs.map digitValue? = (cs.filterMap digitValue?).map some := by
  induction cs with
  | nil => rfl
  | cons c r ih =>
    rw [List.forall_mem_cons] at h
    obtain ⟨d, hd⟩ := Option.isSome_iff_exists.mp h.1
    rw [List.map_cons, List.filterMap_cons_some hd, List.map_cons, hd, ih h.2]

theorem natural?_eq_some_iff {cs : List Char} {n : Nat} (hne : cs ≠ []) (hplain : '_' ∉ cs) :
    natural? cs = some n ↔ IsNumber cs ∧ ofDigits (cs.filterMap digitValue?) = n := by
  simp only [natural?, Option.bind_eq_bind, Option.bind_eq_some_iff,
    underscored?_eq_some_iff hne hplain, Option.ite_none_right_eq_some, Option.some.injEq]
  constructor
  · rintro ⟨ds, hds, hlen, rfl⟩
    have hread : cs.filterMap digitValue? = ds := by
      have h := congrArg (List.filterMap id) hds
      simpa [List.filterMap_map] using h
    have hcount : cs.length = ds.length := by
      simpa using congrArg List.length hds
    refine ⟨⟨hcount ▸ hlen, ?_⟩, by rw [hread]⟩
    intro c hc
    have hmem : digitValue? c ∈ ds.map some := hds ▸ List.mem_map_of_mem hc
    obtain ⟨d, -, hd⟩ := List.mem_map.mp hmem
    rw [← hd, Option.isSome_some]
  · rintro ⟨⟨hlen, hdigits⟩, rfl⟩
    have hmap := map_digitValue? hdigits
    have hcount : cs.length = (cs.filterMap digitValue?).length := by
      simpa using congrArg List.length hmap
    exact ⟨_, hmap, hcount ▸ hlen, rfl⟩

end Chars

namespace Decode

/-! ## 2. Times of day -/

theorem plain_of_allDigitSigns {cs : List Char} (h : allDigitSigns cs = true) :
    cs ≠ [] ∧ '_' ∉ cs ∧ ':' ∉ cs := by
  rw [allDigitSigns, Bool.and_eq_true, Bool.not_eq_true', List.isEmpty_eq_false_iff,
    List.all_eq_true] at h
  have hout : ∀ c, Chars.isDigitSign c = false → c ∉ cs := by
    intro c hc hmem
    rw [h.2 c hmem] at hc
    cases hc
  exact ⟨h.1, hout '_' (by decide +kernel), hout ':' (by decide +kernel)⟩

theorem clockNumber_eq_ok_iff {s : String} {cs : List Char} {n : Nat}
    (h : allDigitSigns cs = true) : clockNumber s cs = .ok n ↔
      Chars.IsNumber cs ∧ Chars.ofDigits (cs.filterMap Chars.digitValue?) = n := by
  obtain ⟨hne, hplain, -⟩ := plain_of_allDigitSigns h
  rw [← Chars.natural?_eq_some_iff hne hplain, clockNumber]
  cases Chars.natural? cs <;> simp

theorem clockNumber_eq_error_iff {s : String} {cs : List Char} {e : DecodeError}
    (h : allDigitSigns cs = true) : clockNumber s cs = .error e ↔
      ¬ Chars.IsNumber cs ∧ e = .badClock s := by
  obtain ⟨hne, hplain, -⟩ := plain_of_allDigitSigns h
  have hnone : Chars.natural? cs = none ↔ ¬ Chars.IsNumber cs := by
    rw [Option.eq_none_iff_forall_ne_some]
    simp [Chars.natural?_eq_some_iff hne hplain]
  rw [← hnone, clockNumber]
  cases Chars.natural? cs with
  | none => simp [eq_comm]
  | some n => simp

/-- A text with a colon between digit signs, two of them behind it. -/
structure ClockForm (s : String) (hours minutes : List Char) : Prop where
  text : Chars.trim s.toList = hours ++ ':' :: minutes
  hourSigns : allDigitSigns hours = true
  minuteSigns : allDigitSigns minutes = true
  twoMinutes : minutes.length = 2

/-- A text of the form of a time of day with digit signs that make no number where one is read: the
hours, and the minutes if the hours are not past 23. -/
def Unreadable (s : String) : Prop :=
  ∃ hours minutes, ClockForm s hours minutes ∧
    (¬ Chars.IsNumber hours ∨
      Chars.ofDigits (hours.filterMap Chars.digitValue?) ≤ 23 ∧ ¬ Chars.IsNumber minutes)

theorem ClockForm.cut {s : String} {hours minutes : List Char} (h : ClockForm s hours minutes) :
    (Chars.trim s.toList).takeWhile (· != ':') = hours ∧
      (Chars.trim s.toList).dropWhile (· != ':') = ':' :: minutes := by
  have hbefore : ∀ c ∈ hours, (c != ':') = true := by
    intro c hc
    refine bne_iff_ne.mpr ?_
    rintro rfl
    exact (plain_of_allDigitSigns h.hourSigns).2.2 hc
  rw [h.text, List.takeWhile_append_of_pos hbefore, List.dropWhile_append_of_pos hbefore]
  simp

/-- A text of another form is no time of day. -/
theorem clock_of_not_form {s : String} (h : ∀ hours minutes, ¬ ClockForm s hours minutes) :
    clock (.str s) = .ok defaultClock := by
  simp only [clock, Json.str?]
  split
  · rfl
  · rename_i c minutes hdrop
    split
    · rename_i hform
      simp only [Bool.and_eq_true, beq_iff_eq] at hform
      have hcolon : c = ':' := by
        have hnot := List.head?_dropWhile_not (· != ':') (Chars.trim s.toList)
        rw [hdrop] at hnot
        simpa using hnot
      have htext : Chars.trim s.toList =
          (Chars.trim s.toList).takeWhile (· != ':') ++ ':' :: minutes := by
        rw [hcolon] at hdrop
        rw [← hdrop, List.takeWhile_append_dropWhile]
      exact absurd ⟨htext, hform.1.1, hform.1.2, hform.2⟩ (h _ _)
    · rfl

/-- A text of the form is read as its two numbers, the hours first. -/
theorem clock_of_form {s : String} {hours minutes : List Char} (h : ClockForm s hours minutes) :
    clock (.str s) = (clockNumber s hours).bind fun n =>
      if 23 < n then .ok defaultClock
      else (clockNumber s minutes).bind fun m =>
        if 59 < m then .ok defaultClock
        else .ok (String.ofList (Chars.padded 2 n ++ ':' :: minutes)) := by
  obtain ⟨htake, hdrop⟩ := h.cut
  simp only [clock, Json.str?, htake, hdrop, h.hourSigns, h.minuteSigns, h.twoMinutes,
    Bool.and_self, beq_self_eq_true, if_true]
  rfl

theorem unreadable_iff {s : String} {hours minutes : List Char} (h : ClockForm s hours minutes) :
    Unreadable s ↔ ¬ Chars.IsNumber hours ∨
      Chars.ofDigits (hours.filterMap Chars.digitValue?) ≤ 23 ∧ ¬ Chars.IsNumber minutes := by
  constructor
  · rintro ⟨hours', minutes', h', hbad⟩
    have hhours : hours' = hours := h'.cut.1.symm.trans h.cut.1
    have hminutes : ':' :: minutes' = ':' :: minutes := h'.cut.2.symm.trans h.cut.2
    obtain rfl := hhours
    obtain rfl := (List.cons.inj hminutes).2
    exact hbad
  · exact fun hbad => ⟨hours, minutes, h, hbad⟩

theorem clock_eq_error_iff_of_form {s : String} {hours minutes : List Char} {e : DecodeError}
    (h : ClockForm s hours minutes) :
    clock (.str s) = .error e ↔ Unreadable s ∧ e = .badClock s := by
  rw [clock_of_form h, unreadable_iff h]
  cases hn : clockNumber s hours with
  | error e' =>
    obtain ⟨hbad, rfl⟩ := (clockNumber_eq_error_iff h.hourSigns).mp hn
    simp [Except.bind, hbad, eq_comm]
  | ok n =>
    obtain ⟨hgood, rfl⟩ := (clockNumber_eq_ok_iff h.hourSigns).mp hn
    by_cases hlate : 23 < Chars.ofDigits (hours.filterMap Chars.digitValue?)
    · simp [Except.bind, hgood, hlate, Nat.not_le.mpr hlate]
    · cases hm : clockNumber s minutes with
      | error e' =>
        obtain ⟨hbad, rfl⟩ := (clockNumber_eq_error_iff h.minuteSigns).mp hm
        simp [Except.bind, hgood, hlate, hbad, Nat.not_lt.mp hlate, eq_comm]
      | ok m =>
        have hgood' := ((clockNumber_eq_ok_iff h.minuteSigns).mp hm).1
        by_cases hpast : 59 < m <;> simp [Except.bind, hgood, hgood', hlate, hpast]

/-- The unreadable texts are what a time of day is refused for, and nothing else is. -/
theorem clock_eq_error_iff {j : Json} {e : DecodeError} :
    clock j = .error e ↔ ∃ s, j = .str s ∧ Unreadable s ∧ e = .badClock s := by
  cases j with
  | str s =>
    simp only [Json.str.injEq, exists_eq_left']
    by_cases hform : ∃ hours minutes, ClockForm s hours minutes
    · obtain ⟨hours, minutes, h⟩ := hform
      exact clock_eq_error_iff_of_form h
    · rw [clock_of_not_form fun hours minutes h => hform ⟨hours, minutes, h⟩]
      constructor
      · rintro ⟨⟩
      · rintro ⟨⟨hours, minutes, h, -⟩, -⟩
        exact absurd ⟨hours, minutes, h⟩ hform
  | _ => simp [clock, Json.str?, pure, Except.pure]

/-! ## 3. Tasks -/

theorem task_eq_error_iff {id : String} {members : Members} {e : DecodeError} :
    task id members = .error e ↔ clock (Json.field members "time") = .error e := by
  rw [task]
  cases clock (Json.field members "time") with
  | error e' =>
    constructor
    · rintro ⟨⟩
      rfl
    · rintro ⟨⟩
      rfl
  | ok time => exact ⟨nofun, nofun⟩

/-- A list of tasks is read if and only if no first entry with an id has an unreadable time; if it is
not read, the text of such a time is what it is refused for. -/
theorem tasks_returns_iff (j : Json) :
    ((∃ ts, tasks j = .ok ts) ↔ ∀ id members s, FirstWith j id members →
      Json.field members "time" = .str s → ¬ Unreadable s) ∧
    ∀ e, tasks j = .error e → ∃ id members s, FirstWith j id members ∧
      Json.field members "time" = .str s ∧ Unreadable s ∧ e = .badClock s := by
  have hrefused : ∀ e, tasks j = .error e → ∃ id members s, FirstWith j id members ∧
      Json.field members "time" = .str s ∧ Unreadable s ∧ e = .badClock s := by
    intro e he
    obtain ⟨⟨id, members⟩, hin, hfail⟩ := exists_of_mapM_eq_error he
    obtain ⟨s, hs, hbad, rfl⟩ := clock_eq_error_iff.mp (task_eq_error_iff.mp hfail)
    exact ⟨id, members, s, mem_identified_iff.mp hin, hs, hbad, rfl⟩
  refine ⟨⟨?_, ?_⟩, hrefused⟩
  · rintro ⟨ts, hts⟩ id members s hfirst hs hbad
    obtain ⟨t, ht⟩ := exists_of_mem_forall₂ (mapM_eq_ok_iff.mp hts).flip
      (mem_identified_iff.mpr hfirst)
    have hfail : task id members = .error (.badClock s) :=
      task_eq_error_iff.mpr (clock_eq_error_iff.mpr ⟨s, hs, hbad, rfl⟩)
    exact absurd (ht.2.symm.trans hfail) nofun
  · intro h
    cases hts : tasks j with
    | ok ts => exact ⟨ts, rfl⟩
    | error e =>
      obtain ⟨id, members, s, hfirst, hs, hbad, -⟩ := hrefused e hts
      exact absurd hbad (h id members s hfirst hs)

/-- One superscript for an hour, and no task of the list is read. -/
theorem tasks_superscript :
    tasks (.arr [.obj [("id", .str "a")], .obj [("id", .str "b"), ("time", .str "²:00")]]) =
      .error (.badClock "²:00") := by
  decide +kernel

end Decode

end Recall
