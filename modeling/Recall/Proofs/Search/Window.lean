/-
Recall.Proofs.Search.Window — the window factors out of filtering.

A window is a test of timestamps, and a filter makes it beside others. The test could be left for the
end: what is kept under a window is what is kept under no window, as far as the timestamps pass
(`window_factors`). Two things are behind this. An entry holds the instant that was read from its
record once, and the record's timestamp, read again, gives the same instant (`Prepared.instant`). And
of all the tests only one sees the window (`accepted_eq_and_admits`).

A longer window admits more (`admits_of_length_le`) and a later time admits less (`admits_of_le`), and
both carry over to what is kept.
-/
import Recall.Proofs.Search.Agreement

namespace Recall

/-! ## 1. Windows -/

namespace Window

variable {w w' : Window} {window : String} {instant : Option Int} {now now' : Int}

theorem ofName?_name (w : Window) : ofName? w.name = some w := by
  cases w <;> decide

theorem ofName?_all : ofName? "all" = none := by
  decide

/-- A window with another name than the three lets everything through. -/
theorem admits_of_ofName? (h : ofName? window = none) (instant : Option Int) (now : Int) :
    admits window instant now = true := by
  rw [admits, h]

/-- A bounded window admits what is dated, and not longer ago than the window is long. -/
theorem admits_name_iff :
    admits w.name instant now = true ↔ ∃ t, instant = some t ∧ now - t ≤ w.length := by
  rw [admits, ofName?_name]
  cases instant <;> simp

theorem lengths_le : Window.day.length ≤ Window.week.length ∧
    Window.week.length ≤ Window.month.length := by
  decide

theorem admits_of_length_le (hle : w.length ≤ w'.length) (h : admits w.name instant now = true) :
    admits w'.name instant now = true := by
  rw [admits_name_iff] at h ⊢
  obtain ⟨t, ht, hold⟩ := h
  exact ⟨t, ht, Int.le_trans hold hle⟩

/-- What is in a window at one time was in it at every time before. -/
theorem admits_of_le (hle : now ≤ now') (h : admits window instant now' = true) :
    admits window instant now = true := by
  unfold admits at *
  split at h
  · rfl
  · cases instant with
    | none => cases h
    | some t =>
      simp only [decide_eq_true_eq] at h ⊢
      omega

end Window

/-! ## 2. Entries -/

namespace Entry

/-- The instant of an entry is what its record's timestamp reads as. -/
theorem Prepared.instant {e : Entry} (h : Prepared e) :
    e.instant = Timestamp.parse? e.record.createdAt := by
  cases h <;> rfl

/-- An entry is accepted under a window when it is accepted under none, at whatever time, and its
instant is in the window. -/
theorem accepted_eq_and_admits (e : Entry) (q : Query) (window : String) (now now' : Int) :
    e.accepted q window now =
      (e.accepted q "all" now' && Window.admits window e.instant now) := by
  have hall : Window.admits "all" e.instant now' = true :=
    Window.admits_of_ofName? Window.ofName?_all _ _
  simp only [accepted, hall, Bool.and_true]
  ac_rfl

/-! ## 3. What is kept -/

section Kept

variable {entries : List Entry} {q : Query}

theorem filter_window (h : ∀ e ∈ entries, Prepared e) (window : String) (now now' : Int) :
    filter q window now entries = (filter q "all" now' entries).filter fun e =>
      Window.admitsText window (some e.record.createdAt) now := by
  rw [filter, filter, List.filter_filter]
  refine List.filter_congr ?_
  intro e he
  rw [accepted_eq_and_admits e q window now now', (h e he).instant, Bool.and_comm]
  rfl

/-- A bounded window keeps what is dated, and not longer ago than the window is long. -/
theorem mem_filter_name_iff (h : ∀ e ∈ entries, Prepared e) (w : Window) (now now' : Int)
    (e : Entry) :
    e ∈ filter q w.name now entries ↔ e ∈ filter q "all" now' entries ∧
      ∃ t, Timestamp.parse? e.record.createdAt = some t ∧ now - t ≤ w.length := by
  rw [filter_window h w.name now now', List.mem_filter]
  exact and_congr_right' Window.admits_name_iff

/-- A window that admits more keeps more, in the same order. -/
theorem filter_sublist_of_admits {window window' : String} {now now' : Int}
    (h : ∀ instant, Window.admits window instant now = true →
      Window.admits window' instant now' = true) :
    (filter q window now entries).Sublist (filter q window' now' entries) := by
  refine List.monotone_filter_right entries ?_
  intro e he
  rw [accepted_eq_and_admits e q window now now, Bool.and_eq_true] at he
  rw [accepted_eq_and_admits e q window' now' now, Bool.and_eq_true]
  exact ⟨he.1, h e.instant he.2⟩

end Kept

/-- **The window factors out of filtering.** For entries of records of any kind, what a query keeps
under a window is what it keeps under no window, as far as the records' own timestamps are in the
window. A bounded window keeps of it what is dated, and not longer ago than the window is long. So the
windows keep more from the day to the week, the month and no bound, and what is kept at one time was
kept at every time before. -/
theorem window_factors (q : Query) (entries : List Entry) (h : ∀ e ∈ entries, Prepared e) :
    (∀ (window : String) (now : Int),
      filter q window now entries = (filter q "all" now entries).filter fun e =>
        Window.admitsText window (some e.record.createdAt) now) ∧
    (∀ (w : Window) (now : Int) (e : Entry),
      e ∈ filter q w.name now entries ↔ e ∈ filter q "all" now entries ∧
        ∃ t, Timestamp.parse? e.record.createdAt = some t ∧ now - t ≤ w.length) ∧
    (∀ now : Int,
      (filter q "24h" now entries).Sublist (filter q "7d" now entries) ∧
      (filter q "7d" now entries).Sublist (filter q "30d" now entries) ∧
      (filter q "30d" now entries).Sublist (filter q "all" now entries)) ∧
    ∀ (window : String) (now now' : Int), now ≤ now' →
      (filter q window now' entries).Sublist (filter q window now entries) := by
  refine ⟨fun window now => filter_window h window now now,
    fun w now e => mem_filter_name_iff h w now now e, fun now => ⟨?_, ?_, ?_⟩, ?_⟩
  · exact filter_sublist_of_admits fun _ => Window.admits_of_length_le Window.lengths_le.1
  · exact filter_sublist_of_admits fun _ => Window.admits_of_length_le Window.lengths_le.2
  · exact filter_sublist_of_admits fun instant _ =>
      Window.admits_of_ofName? Window.ofName?_all instant now
  · intro window now now' hle
    exact filter_sublist_of_admits fun _ => Window.admits_of_le hle

/-- Records of all kinds: one a day old to the millisecond, one a millisecond older, one of next year,
one with a date that cannot be read, and one of the day before with an offset. -/
def datedEntries : List Entry :=
  [ofThread { id := "t", question := "plan", createdAt := "2026-02-07T12:00:00.000Z" } none,
    ofSpace { id := "s", name := "plan", createdAt := "2026-02-07T11:59:59.999Z" } [],
    ofCollection { id := "c", name := "plan", createdAt := "2027-01-01" },
    ofFile { id := "f", name := "plan", addedAt := "yesterday" },
    ofTask { id := "k", name := "plan", createdAt := "2026-02-07T23:00:00+12:00" }]

theorem window_factors_datedEntries :
    (∀ e ∈ datedEntries, Prepared e) ∧
      (filter (Query.parse "plan") "24h" 1770552000000 datedEntries).map Entry.id = ["t", "c"] ∧
      (filter (Query.parse "plan") "24h" 1770552000000 datedEntries).Sublist
        (filter (Query.parse "plan") "7d" 1770552000000 datedEntries) ∧
      (filter (Query.parse "plan") "7d" 1770552000000 datedEntries).map Entry.id =
        ["t", "s", "c", "k"] ∧
      (filter (Query.parse "plan") "24h" 1770552000000 datedEntries).Sublist
        (filter (Query.parse "plan") "24h" 1770551999999 datedEntries) ∧
      (filter (Query.parse "plan") "24h" 1770551999999 datedEntries).map Entry.id =
        ["t", "s", "c"] := by
  have hprep : ∀ e ∈ datedEntries, Prepared e := by
    simp only [datedEntries, List.forall_mem_cons]
    exact ⟨.thread _ _, .space _ _, .collection _, .file _, .task _, by simp⟩
  obtain ⟨hfactor, -, hchain, htime⟩ := window_factors (Query.parse "plan") datedEntries hprep
  refine ⟨hprep, ?_, (hchain _).1, by decide +kernel, htime "24h" _ _ (by decide), by decide +kernel⟩
  rw [hfactor]
  decide +kernel

end Entry

end Recall
