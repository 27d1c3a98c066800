/-
Recall.Proofs.Selection.Unchanged — an edit gives back what it was given exactly when nothing changed.

Every edit decides by a shortcut of its own whether it has anything to do: the first search with an
id, an equal name, an equal length, nothing visible, all valid, nothing to add. `Edit.Exact` says that
the shortcut is right on both sides: whatever comes back as given is as it was, and whatever comes
back as new is not equal to what was given. Three of the edits are one filter (`Edit.filter`), which
compares lengths; two replace the first search with an id, and are exact because what they put there
is another search; one appends.

A caller who draws a list only when an edit gives back a new one is a `View`. If all edits are exact,
what is drawn is always the list as it is, and drawing happens just as often as the list changes
(`View.follows`). `unchanged_iff_equal` has both sides for all edits.
-/
import Recall.Proofs.Saved.Edit
import Recall.Proofs.Selection.Algebra

namespace Recall

/-! ## 1. Exact edits -/

namespace Edit

variable {α : Type}

/-- An edit says that it changed nothing exactly when it did not. -/
def Exact (old : α) (e : Edit α) : Prop :=
  e.isUnchanged = true ↔ e.get old = old

theorem exact_unchanged (old : α) : (unchanged : Edit α).Exact old := by
  simp [Exact, isUnchanged]

theorem exact_changed {old new : α} (h : new ≠ old) : (changed new).Exact old := by
  simp [Exact, isUnchanged, h]

/-- The elements with `p`; the very list when none is lost, which its length tells. -/
def filter (p : α → Bool) (l : List α) : Edit (List α) :=
  if (l.filter p).length = l.length then .unchanged else .changed (l.filter p)

theorem exact_filter (p : α → Bool) (l : List α) : (filter p l).Exact l := by
  rw [filter]
  split
  · exact exact_unchanged l
  · rename_i h
    exact exact_changed fun heq => h (congrArg List.length heq)

theorem filter_of_all {p : α → Bool} {l : List α} (h : ∀ a ∈ l, p a = true) :
    filter p l = .unchanged := by
  rw [filter, if_pos (congrArg List.length (List.filter_eq_self.mpr h))]

theorem filter_of_not {p : α → Bool} {l : List α} (h : ∃ a ∈ l, p a = false) :
    filter p l = .changed (l.filter p) := by
  obtain ⟨a, ha, hp⟩ := h
  rw [filter, if_neg]
  intro hlen
  rw [List.length_filter_eq_length_iff.mp hlen a ha] at hp
  cases hp

end Edit

/-! ## 2. Selections -/

namespace Selection

theorem prune_eq_filter (selected valid : List String) :
    prune selected valid = Edit.filter valid.contains selected := by
  rw [prune]
  split
  · rename_i h
    exact (Edit.filter_of_all (List.all_eq_true.mp h)).symm
  · rename_i h
    refine (Edit.filter_of_not ?_).symm
    simpa using h

theorem disable_eq_filter (selected visible : List String) :
    disable selected visible = Edit.filter (fun id => !visible.contains id) selected := by
  rw [disable]
  split
  · rename_i h
    refine (Edit.filter_of_not ?_).symm
    simpa using h
  · rename_i h
    refine (Edit.filter_of_all ?_).symm
    simpa using h

theorem exact_enable (selected visible : List String) :
    (enable selected visible).Exact selected := by
  unfold enable
  split
  · exact Edit.exact_unchanged selected
  · rename_i hne
    exact Edit.exact_changed fun heq => hne (List.append_right_eq_self.mp heq)

theorem exact_toggle (selected visible : List String) (on : Bool) :
    (toggle selected visible on).Exact selected := by
  cases on with
  | true => exact exact_enable selected visible
  | false =>
    have heq : toggle selected visible false = _ := disable_eq_filter selected visible
    rw [heq]
    exact Edit.exact_filter _ selected

theorem exact_prune (selected valid : List String) : (prune selected valid).Exact selected := by
  rw [prune_eq_filter]
  exact Edit.exact_filter _ selected

end Selection

/-! ## 3. Saved searches -/

namespace Saved

/-- A list in which the first search with an id is another one is another list. -/
theorem ne_of_replaceFirst? {id : String} {f : SavedSearch → SavedSearch} :
    ∀ {searches new : List SavedSearch}, replaceFirst? id f searches = some new →
      (∀ s, find? id searches = some s → f s ≠ s) → new ≠ searches
  | [], _, h, _ => nomatch h
  | s :: r, new, h, hf => by
      by_cases hs : s.id = id
      · rw [replaceFirst?, if_pos hs] at h
        have hne : f s ≠ s := hf s (by simp [find?, hs])
        rw [← Option.some.inj h]
        exact fun heq => hne (List.cons.inj heq).1
      · rw [replaceFirst?, if_neg hs] at h
        obtain ⟨t, ht, rfl⟩ := Option.map_eq_some_iff.mp h
        have hne : t ≠ r := ne_of_replaceFirst? ht fun u hu => hf u (by simpa [find?, hs] using hu)
        exact fun heq => hne (List.cons.inj heq).2

theorem exact_replaced {id : String} {f : SavedSearch → SavedSearch} {searches : List SavedSearch}
    (hf : ∀ s, find? id searches = some s → f s ≠ s) :
    (Edit.ofOption (replaceFirst? id f searches)).Exact searches := by
  cases h : replaceFirst? id f searches with
  | none => exact Edit.exact_unchanged searches
  | some new => exact Edit.exact_changed (ne_of_replaceFirst? h hf)

theorem exact_rename (searches : List SavedSearch) (id newName now : String) :
    (rename searches id newName now).Exact searches := by
  rw [rename]
  split
  · exact Edit.exact_unchanged searches
  · rename_i h
    refine exact_replaced fun s hs heq => h (Or.inr ?_)
    simpa [hs] using (congrArg SavedSearch.name heq).symm

theorem exact_togglePin (searches : List SavedSearch) (id now : String) :
    (togglePin searches id now).Exact searches := by
  refine exact_replaced fun s _ heq => ?_
  have hpin : (!s.pinned) = s.pinned := congrArg SavedSearch.pinned heq
  simp at hpin

theorem delete_eq_filter (searches : List SavedSearch) (id : String) :
    delete searches id = Edit.filter (fun s => s.id != id) searches := by
  rw [delete]
  split
  · rename_i h
    refine (Edit.filter_of_not ?_).symm
    simpa using h
  · rename_i h
    refine (Edit.filter_of_all ?_).symm
    simpa using h

theorem exact_delete (searches : List SavedSearch) (id : String) :
    (delete searches id).Exact searches := by
  rw [delete_eq_filter]
  exact Edit.exact_filter _ searches

end Saved

/-! ## 4. A caller who skips work -/

/-- What a caller keeps who shows a value: what was drawn of it, and how often something was. -/
structure View (α β : Type) where
  shown : α
  drawn : β
  draws : Nat := 0
  deriving Repr

namespace View

variable {α β : Type} (draw : α → β)

/-- The view after an edit. A value that was given back is not drawn again. -/
def follow (v : View α β) : Edit α → View α β
  | .unchanged => v
  | .changed new => ⟨new, draw new, v.draws + 1⟩

/-- The view of a value after edits one behind the other. -/
def run (start : α) (edits : List (α → Edit α)) : View α β :=
  edits.foldl (fun v edit => v.follow draw (edit v.shown)) ⟨start, draw start, 0⟩

/-- The values that edits one behind the other give, each beside the one before. -/
def turns : α → List (α → Edit α) → List (α × α)
  | _, [] => []
  | a, edit :: rest => (a, (edit a).get a) :: turns ((edit a).get a) rest

/-- The value in the end. -/
def last : α → List (α → Edit α) → α
  | a, [] => a
  | a, edit :: rest => last ((edit a).get a) rest

/-- A view is up to date when what was drawn is drawn of what is shown. -/
def UpToDate (v : View α β) : Prop :=
  v.drawn = draw v.shown

theorem upToDate_follow {v : View α β} (h : v.UpToDate draw) (e : Edit α) :
    (v.follow draw e).UpToDate draw := by
  cases e with
  | unchanged => exact h
  | changed new => rfl

theorem shown_follow (v : View α β) (e : Edit α) : (v.follow draw e).shown = e.get v.shown := by
  cases e <;> rfl

/-- One exact edit is drawn if it changed something, and else not. -/
theorem draws_follow [DecidableEq α] {v : View α β} {e : Edit α} (h : e.Exact v.shown) :
    (v.follow draw e).draws = v.draws + if v.shown = e.get v.shown then 0 else 1 := by
  cases e with
  | unchanged => simp [follow]
  | changed new =>
    have hne : v.shown ≠ new := by
      intro heq
      simpa [Edit.isUnchanged] using h.mpr heq.symm
    simp [follow, hne]

theorem foldl_follow [DecidableEq α] : ∀ {edits : List (α → Edit α)},
    (∀ edit ∈ edits, ∀ a, (edit a).Exact a) → ∀ {v : View α β}, v.UpToDate draw →
      let w := edits.foldl (fun v edit => v.follow draw (edit v.shown)) v
      w.UpToDate draw ∧ w.shown = last v.shown edits ∧
        w.draws = v.draws + (turns v.shown edits).countP fun turn => turn.1 ≠ turn.2
  | [], _, _, hv => ⟨hv, rfl, rfl⟩
  | edit :: rest, h, v, hv => by
      have hrest := foldl_follow (fun e he => h e (List.mem_cons_of_mem edit he))
        (upToDate_follow draw hv (edit v.shown))
      rw [shown_follow, draws_follow draw (h edit List.mem_cons_self v.shown)] at hrest
      refine ⟨hrest.1, hrest.2.1, hrest.2.2.trans ?_⟩
      rw [turns, List.countP_cons, Nat.add_assoc, Nat.add_comm (List.countP _ _)]
      by_cases heq : v.shown = (edit v.shown).get v.shown
      · rw [if_pos heq, if_neg (by simpa using heq)]
      · rw [if_neg heq, if_pos (by simpa using heq)]

/-- A view that follows exact edits shows the value as it is, and is drawn once for each change. -/
theorem follows [DecidableEq α] {edits : List (α → Edit α)}
    (h : ∀ edit ∈ edits, ∀ a, (edit a).Exact a) (start : α) :
    (run draw start edits).drawn = draw (last start edits) ∧
      (run draw start edits).draws =
        (turns start edits).countP fun turn => turn.1 ≠ turn.2 := by
  obtain ⟨hdrawn, hshown, hdraws⟩ := foldl_follow draw h (v := ⟨start, draw start, 0⟩) rfl
  refine ⟨?_, ?_⟩
  · exact hdrawn.trans (congrArg draw hshown)
  · rw [run, hdraws, Nat.zero_add]

end View

/-! ## 5. All edits -/

/-- An edit of saved searches that may have nothing to do. -/
inductive Saved.Tweak where
  | rename (id newName now : String)
  | togglePin (id now : String)
  | delete (id : String)
  deriving DecidableEq, Repr

/-- An edit of a selection. -/
inductive Selection.Tweak where
  | prune (valid : List String)
  | toggle (visible : List String) (on : Bool)
  deriving DecidableEq, Repr

/-- What an edit of saved searches gives back. -/
def Saved.Tweak.edit : Tweak → List SavedSearch → Edit (List SavedSearch)
  | rename id newName now => fun searches => Saved.rename searches id newName now
  | togglePin id now => fun searches => Saved.togglePin searches id now
  | delete id => fun searches => Saved.delete searches id

/-- What an edit of a selection gives back. -/
def Selection.Tweak.edit : Tweak → List String → Edit (List String)
  | prune valid => fun selected => Selection.prune selected valid
  | toggle visible on => fun selected => Selection.toggle selected visible on

theorem Saved.Tweak.exact_edit (tweak : Tweak) (searches : List SavedSearch) :
    (tweak.edit searches).Exact searches := by
  cases tweak with
  | rename id newName now => exact exact_rename searches id newName now
  | togglePin id now => exact exact_togglePin searches id now
  | delete id => exact exact_delete searches id

theorem Selection.Tweak.exact_edit (tweak : Tweak) (selected : List String) :
    (tweak.edit selected).Exact selected := by
  cases tweak with
  | prune valid => exact exact_prune selected valid
  | toggle visible on => exact exact_toggle selected visible on

theorem View.follows_map {α β γ : Type} [DecidableEq α] (draw : α → β) {edit : γ → α → Edit α}
    (h : ∀ c a, (edit c a).Exact a) (start : α) (cs : List γ) :
    (run draw start (cs.map edit)).drawn = draw (last start (cs.map edit)) ∧
      (run draw start (cs.map edit)).draws =
        (turns start (cs.map edit)).countP fun turn => turn.1 ≠ turn.2 := by
  refine follows draw ?_ start
  intro e he
  obtain ⟨c, -, rfl⟩ := List.mem_map.mp he
  exact h c

/-- **The very list comes back exactly when nothing changed.** For each edit and all its arguments,
on every list, with repeats or without: the edit says that it gives back what it was given if and
only if the list after it is equal to the list before. So a caller who draws only what is not given
back has drawn the list as it is after any edits, and has drawn it once for each edit that changed
it. -/
theorem unchanged_iff_equal :
    (∀ searches id newName now, (Saved.rename searches id newName now).isUnchanged = true ↔
      (Saved.rename searches id newName now).get searches = searches) ∧
    (∀ searches id now, (Saved.togglePin searches id now).isUnchanged = true ↔
      (Saved.togglePin searches id now).get searches = searches) ∧
    (∀ searches id, (Saved.delete searches id).isUnchanged = true ↔
      (Saved.delete searches id).get searches = searches) ∧
    (∀ selected valid, (Selection.prune selected valid).isUnchanged = true ↔
      (Selection.prune selected valid).get selected = selected) ∧
    (∀ selected visible on, (Selection.toggle selected visible on).isUnchanged = true ↔
      (Selection.toggle selected visible on).get selected = selected) ∧
    (∀ {β : Type} (draw : List SavedSearch → β) start (tweaks : List Saved.Tweak),
      let edits := tweaks.map Saved.Tweak.edit
      (View.run draw start edits).drawn = draw (View.last start edits) ∧
        (View.run draw start edits).draws =
          (View.turns start edits).countP fun turn => turn.1 ≠ turn.2) ∧
    ∀ {β : Type} (draw : List String → β) start (tweaks : List Selection.Tweak),
      let edits := tweaks.map Selection.Tweak.edit
      (View.run draw start edits).drawn = draw (View.last start edits) ∧
        (View.run draw start edits).draws =
          (View.turns start edits).countP fun turn => turn.1 ≠ turn.2 :=
  ⟨Saved.exact_rename, Saved.exact_togglePin, Saved.exact_delete, Selection.exact_prune,
    Selection.exact_toggle,
    fun draw => View.follows_map draw Saved.Tweak.exact_edit,
    fun draw => View.follows_map draw Selection.Tweak.exact_edit⟩

end Recall
