/-
Recall.Proofs.Settings.Basic — settings and their members.

Whatever members say, the settings made of them are valid (`valid_ofMembers`), and valid settings are
made of their own members (`ofMembers_members`). So a valid field is read as it is, and any other
reads as its default; `wordOr_eq` and `limitOf_eq` say so for the fields that a variable sets.
-/
import Recall.Proofs.Saved.Stored
import Recall.Settings.Basic

namespace Recall

namespace Settings

instance (s : Settings) : Decidable s.Valid :=
  inferInstanceAs (Decidable (_ ∧ _ ∧ _ ∧ _ ∧ _))

/-! ## 1. Fields -/

theorem positiveOr_pos {fallback : Int} (h : 0 < fallback) (j : Json) : 0 < positiveOr fallback j := by
  unfold positiveOr
  split
  · split
    · assumption
    · exact h
  · exact h

theorem positiveOr_int {n : Int} (fallback : Int) (h : 0 < n) : positiveOr fallback (.int n) = n :=
  if_pos h

theorem wordOr_eq (vocabulary : List String) (fallback v : String) :
    Saved.wordOr vocabulary fallback (.str v) = if v ∈ vocabulary then v else fallback := by
  by_cases h : v ∈ vocabulary
  · rw [if_pos h, Saved.wordOr_str h]
  · rw [if_neg h]
    simp [Saved.wordOr, Json.str?, Option.filter, h]

theorem limitOf_eq (n : Int) :
    Saved.limitOf (.int n) = if n ∈ Saved.limits then n else Saved.defaultLimit := by
  simp [Saved.limitOf]

/-! ## 2. Members -/

/-- Any members give valid settings. -/
theorem valid_ofMembers (members : List (String × Json)) : (ofMembers members).Valid :=
  ⟨Saved.sortOf_mem _, Saved.windowOf_mem _, Saved.limitOf_mem _, positiveOr_pos (by decide) _,
    positiveOr_pos (by decide) _⟩

/-- Valid settings come back from their members, wherever these stand in the list. -/
theorem ofMembers_eq {members : List (String × Json)} {s : Settings} (h : s.Valid)
    (hfield : ∀ key ∈ s.members.map Prod.fst,
      Json.field members key = Json.field s.members key) : ofMembers members = s := by
  obtain ⟨hsort, hwindow, hlimit, hrecent, htop⟩ := h
  simp only [Settings.members, List.map_cons, List.map_nil, List.forall_mem_cons] at hfield
  obtain ⟨h₁, h₂, h₃, h₄, h₅, h₆, -⟩ := hfield
  rw [ofMembers, h₁, h₂, h₃, h₄, h₅, h₆]
  have hs : Saved.sortOf (.str s.sortBy) = s.sortBy := Saved.wordOr_str hsort
  have hw : Saved.windowOf (.str s.window) = s.window := Saved.wordOr_str hwindow
  have hl : Saved.limitOf (.int s.limit) = s.limit := Saved.limitOf_int hlimit
  have hr : positiveOr 5 (.int s.recentLimit) = s.recentLimit := positiveOr_int 5 hrecent
  have ht : positiveOr 3 (.int s.topResults) = s.topResults := positiveOr_int 3 htop
  simp [Json.field, Json.lookup?, isTrue, hs, hw, hl, hr, ht]

theorem ofMembers_members {s : Settings} (h : s.Valid) : ofMembers s.members = s :=
  ofMembers_eq h fun _ _ => rfl

end Settings

end Recall
