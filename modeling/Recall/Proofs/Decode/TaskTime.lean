/-
Recall.Proofs.Decode.TaskTime — the times of the tasks that are read.

A task is read from the first entry with its id, and its time from what is stored there. If that is a
text that names a time of day, in the digits of any script and with any number of zeros before the
hour, the task has this time; anything else gives the default (`task_times`).

The hour is written anew and the minutes are not. So a time is in ASCII exactly when its minutes were
stored in ASCII, and a stored time with other digits for the minutes keeps them
(`task_time_foreign`).
-/
import Recall.Proofs.Decode.Records
import Recall.Proofs.Decode.TimeOfDay

namespace Recall

namespace Decode

/-- **What the times of tasks are.** Each is five characters, two digits for the hour, a colon and two
for the minutes. It is the time that the stored text names, with the same hour and the minutes as they
were, and the default if nothing stored names a time. It is in ASCII unless the minutes that are
stored are not. -/
theorem task_times {j : Json} {ts : List Task} (h : tasks j = .ok ts) : ∀ t ∈ ts,
    ∃ members, FirstWith j t.id members ∧
      (t.time.toList.length = 5 ∧ ∃ hour minutes, TimeOfDay t.time hour minutes) ∧
      (∀ s hours minutes, Json.field members "time" = .str s → NamesTime s hours minutes →
        TimeOfDay t.time (Chars.ofDigits (hours.filterMap Chars.digitValue?)) minutes) ∧
      ((∀ s hours minutes, Json.field members "time" = .str s → ¬ NamesTime s hours minutes) →
        t.time = "09:00") ∧
      ((∀ c ∈ t.time.toList, c.toNat < 0x80) ↔
        ∀ s hours minutes, Json.field members "time" = .str s → NamesTime s hours minutes →
          ∀ c ∈ minutes, c.toNat < 0x80) := by
  intro t ht
  obtain ⟨members, hfirst, hbuild⟩ := ((decoded_records j).2.2.2.2 ts h).first t ht
  have hclock := (fields_of_task hbuild).2.1
  obtain ⟨hour, minutes, htime⟩ := exists_timeOfDay hclock
  have hnamed : ∀ s hours minutes, Json.field members "time" = .str s →
      NamesTime s hours minutes →
      TimeOfDay t.time (Chars.ofDigits (hours.filterMap Chars.digitValue?)) minutes := by
    intro s hours minutes hs hnames
    rw [hs] at hclock
    rcases clock_of_form_eq_ok hnames.form hclock with ⟨-, ht⟩ | ⟨hnot, -⟩
    · exact ht
    · exact absurd hnames hnot
  have hdefault : (∀ s hours minutes, Json.field members "time" = .str s →
      ¬ NamesTime s hours minutes) → t.time = defaultClock := by
    intro hnone
    rcases clock_eq_ok hclock with ⟨s, hours, minutes, hs, hnames, -⟩ | ⟨-, ht⟩
    · exact absurd hnames (hnone s hours minutes hs)
    · exact ht
  refine ⟨members, hfirst, ⟨htime.length_eq, hour, minutes, htime⟩, hnamed, hdefault, ?_, ?_⟩
  · intro hascii s hours minutes hs hnames
    exact (hnamed s hours minutes hs hnames).ascii_iff.mp hascii
  · intro hminutes
    rcases clock_eq_ok hclock with ⟨s, hours, minutes, hs, hnames, ht⟩ | ⟨-, ht⟩
    · exact ht.ascii_iff.mpr (hminutes s hours minutes hs hnames)
    · rw [ht]
      exact timeOfDay_defaultClock.ascii_iff.mpr (by simp)

/-- Hours with zeros in front and blanks around, hours of another script, and an hour too late. -/
def assortedTimes : Json :=
  .arr [.obj [("id", .str "a"), ("time", .str " 007:05\n")],
    .obj [("id", .str "b"), ("time", .str "٢٣:59")], .obj [("id", .str "c"), ("time", .str "24:00")]]

theorem task_times_assorted : ∃ ts, tasks assortedTimes = .ok ts ∧
    ts.map Task.time = ["07:05", "23:59", "09:00"] ∧ ∀ t ∈ ts,
    ∃ members, FirstWith assortedTimes t.id members ∧
      (t.time.toList.length = 5 ∧ ∃ hour minutes, TimeOfDay t.time hour minutes) ∧
      (∀ s hours minutes, Json.field members "time" = .str s → NamesTime s hours minutes →
        TimeOfDay t.time (Chars.ofDigits (hours.filterMap Chars.digitValue?)) minutes) ∧
      ((∀ s hours minutes, Json.field members "time" = .str s → ¬ NamesTime s hours minutes) →
        t.time = "09:00") ∧
      ((∀ c ∈ t.time.toList, c.toNat < 0x80) ↔
        ∀ s hours minutes, Json.field members "time" = .str s → NamesTime s hours minutes →
          ∀ c ∈ minutes, c.toNat < 0x80) := by
  have hread : (tasks assortedTimes).map (List.map Task.time) = .ok ["07:05", "23:59", "09:00"] := by
    decide +kernel
  cases hts : tasks assortedTimes with
  | error e =>
    rw [hts] at hread
    cases hread
  | ok ts =>
    rw [hts] at hread
    exact ⟨ts, rfl, Except.ok.inj hread, task_times hts⟩

/-- Minutes in the digits of another script are read as they are, so the time is not in ASCII. -/
theorem task_time_foreign :
    ∃ ts, tasks (.arr [.obj [("id", .str "a"), ("time", .str "12:٣٠")]]) = .ok ts ∧
      ∃ t ∈ ts, t.time = "12:٣٠" ∧ ¬ ∀ c ∈ t.time.toList, c.toNat < 0x80 := by
  have hread : (tasks (.arr [.obj [("id", .str "a"), ("time", .str "12:٣٠")]])).map
      (List.map Task.time) = .ok ["12:٣٠"] := by
    decide +kernel
  cases hts : tasks (.arr [.obj [("id", .str "a"), ("time", .str "12:٣٠")]]) with
  | error e =>
    rw [hts] at hread
    cases hread
  | ok ts =>
    rw [hts] at hread
    obtain ⟨t, rfl, ht⟩ := List.map_eq_singleton_iff.mp (Except.ok.inj hread)
    refine ⟨[t], rfl, t, List.mem_singleton_self t, ht, fun hascii => ?_⟩
    have hmem : '٣' ∈ t.time.toList := by
      rw [ht]
      decide +kernel
    exact absurd (hascii '٣' hmem) (by decide)

end Decode

end Recall
