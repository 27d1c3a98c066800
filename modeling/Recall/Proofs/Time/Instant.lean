/-
Recall.Proofs.Time.Instant — the instants that have a written form.

An instant is a date and a time of day (`instant`), and its written form is that date and that time.
So the instants that can be written are those whose date can be, in the years 1 to 9999, and these
are the instants between two bounds (`format?_eq_some_iff`, `exists_format?_iff`).

Reading may also give instants outside the bounds, through an offset. Normalizing gives the fallback
for them, as it does for what cannot be read, and the written form of all others (`Normalized`).
-/
import Recall.Proofs.Time.Timestamp

namespace Recall

namespace Timestamp

/-! ## 1. Dates and times of day -/

/-- The instant of a time of day, in milliseconds, on a date. -/
def instant (d : Date) (t : Nat) : Int :=
  ((d.ordinal : Int) - (Date.epochOrdinal : Int)) * 86400000 + (t : Int)

/-- The instants from the first of year 1 to the last millisecond of year 9999. -/
def InRange (ms : Int) : Prop :=
  -62135596800000 ≤ ms ∧ ms ≤ 253402300799999

instance (ms : Int) : Decidable (InRange ms) :=
  inferInstanceAs (Decidable (_ ∧ _))

theorem inRange_instant {d : Date} (hd : d.isValid = true) {t : Nat} (ht : t < 86400000) :
    InRange (instant d t) := by
  have hbounds := Date.ordinal_bounds hd
  rw [Date.lastOrdinal] at hbounds
  rw [InRange, instant, Date.epochOrdinal]
  omega

/-- A date and a time of day are what is written for their instant. -/
theorem format?_instant {d : Date} (hd : d.isValid = true) {t : Nat} (ht : t < 86400000) :
    format? (instant d t) = some (String.ofList (text d t)) := by
  have hpos := (Date.ordinal_bounds hd).1
  have hrange : least ≤ instant d t ∧ instant d t ≤ greatest := inRange_instant hd ht
  have hday : Int.fdiv (instant d t) 86400000 = (d.ordinal : Int) - (Date.epochOrdinal : Int) := by
    rw [Int.fdiv_eq_ediv_of_nonneg _ (by decide), instant]
    omega
  have htime : (instant d t - ((d.ordinal : Int) - (Date.epochOrdinal : Int)) * 86400000).toNat = t := by
    rw [instant]
    omega
  have hdate : ((d.ordinal : Int) - (Date.epochOrdinal : Int) + (Date.epochOrdinal : Int)).toNat =
      d.ordinal := by omega
  rw [format?, if_pos hrange]
  simp only [hday, htime, hdate, Date.ofOrdinal_ordinal hd, text, dateText, clockText,
    List.append_assoc, List.cons_append]

/-- What is written for an instant is its date and its time of day. -/
theorem format?_eq_some_iff {ms : Int} {s : String} : format? ms = some s ↔
    ∃ d t, d.isValid = true ∧ t < 86400000 ∧ ms = instant d t ∧ s.toList = text d t := by
  constructor
  · intro h
    obtain ⟨n, t, hn, hlast, ht, hms, htext⟩ := exists_of_format?_eq_some h
    refine ⟨Date.ofOrdinal n, t, Date.isValid_ofOrdinal hn hlast, ht, ?_, htext⟩
    rw [micros] at hms
    rw [instant, Date.ordinal_ofOrdinal hn]
    omega
  · rintro ⟨d, t, hd, ht, rfl, htext⟩
    rw [format?_instant hd ht, ← htext, String.ofList_toList]

theorem exists_format?_iff {ms : Int} : (∃ s, format? ms = some s) ↔ InRange ms := by
  constructor
  · rintro ⟨s, hs⟩
    obtain ⟨d, t, hd, ht, rfl, -⟩ := format?_eq_some_iff.mp hs
    exact inRange_instant hd ht
  · intro h
    exact ⟨_, if_pos h⟩

/-! ## 2. Normalizing -/

/-- What a value and a written fallback are normalized to: a written form, of the instant that the
value denotes if that is one between the bounds, and the fallback if not. It is its own normal
form. -/
structure Normalized (v : Option String) (fallback s : String) : Prop where
  written : Written s
  denotes : ∀ ms, v.bind parse? = some ms → InRange ms → parse? s = some ms
  falls : (∀ ms, v.bind parse? = some ms → ¬ InRange ms) → s = fallback
  again : normalize (some s) fallback = s

theorem normalized_normalize {fallback : String} (h : Written fallback) (v : Option String) :
    Normalized v fallback (normalize v fallback) where
  written := written_normalize h v
  denotes ms hv hin := by
    obtain ⟨s, hs⟩ := exists_format?_iff.mpr hin
    rw [normalize, hv, Option.bind_some, hs, Option.getD_some, parse?_of_format? hs]
  falls hout := by
    cases hv : v.bind parse? with
    | none => rw [normalize, hv, Option.bind_none, Option.getD_none]
    | some ms =>
      have hnone : format? ms = none := by
        rw [Option.eq_none_iff_forall_ne_some]
        exact fun s hs => hout ms hv (exists_format?_iff.mp ⟨s, hs⟩)
      rw [normalize, hv, Option.bind_some, hnone, Option.getD_none]
  again := normalize_of_written (written_normalize h v) fallback

/-! ## 3. The round trip -/

/-- **Instants are written and read back.** The instants of the years 1 to 9999 can be written and no
others; what is written is the date and the time of day, and is read as the same instant. So every
value is normalized to a written form. -/
theorem instants_roundTrip :
    (∀ ms, (∃ s, format? ms = some s) ↔ InRange ms) ∧
    (∀ ms s, format? ms = some s ↔
      ∃ d t, d.isValid = true ∧ t < 86400000 ∧ ms = instant d t ∧ s.toList = text d t) ∧
    (∀ ms s, format? ms = some s → parse? s = some ms) ∧
    ∀ v fallback, Written fallback → Normalized v fallback (normalize v fallback) :=
  ⟨fun _ => exists_format?_iff, fun _ _ => format?_eq_some_iff, fun _ _ => parse?_of_format?,
    fun v _ h => normalized_normalize h v⟩

theorem instants_roundTrip_ends :
    Written "1970-01-01T00:00:00.000Z" ∧
    Normalized (some "1969-12-31T23:59:59.9999z") "1970-01-01T00:00:00.000Z"
      "1969-12-31T23:59:59.999Z" ∧
    Normalized (some "0001-01-01T00:30:00+01:00") "1970-01-01T00:00:00.000Z"
      "1970-01-01T00:00:00.000Z" ∧
    InRange 253402300799999 ∧
    format? 253402300799999 = some "9999-12-31T23:59:59.999Z" ∧
    parse? "9999-12-31T23:59:59.999Z" = some 253402300799999 := by
  have hepoch : Written "1970-01-01T00:00:00.000Z" := ⟨0, by decide +kernel⟩
  have hbefore : normalize (some "1969-12-31T23:59:59.9999z") "1970-01-01T00:00:00.000Z" =
      "1969-12-31T23:59:59.999Z" := by decide +kernel
  have hout : normalize (some "0001-01-01T00:30:00+01:00") "1970-01-01T00:00:00.000Z" =
      "1970-01-01T00:00:00.000Z" := by decide +kernel
  have hlast : format? 253402300799999 = some "9999-12-31T23:59:59.999Z" := by decide +kernel
  obtain ⟨hrange, -, hread, hnormalized⟩ := instants_roundTrip
  exact ⟨hepoch, hbefore ▸ hnormalized _ _ hepoch, hout ▸ hnormalized _ _ hepoch,
    (hrange _).mp ⟨_, hlast⟩, hlast, hread _ _ hlast⟩

end Timestamp

end Recall
