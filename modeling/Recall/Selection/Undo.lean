/-
Recall.Selection.Undo — taking back the deletion of several records.

Before the deletion an *anchor* is kept for each record that goes: the record with the ids of its
neighbours. Restoring puts each record behind the neighbour on its left if that is in the list,
else in front of the one on its right, else at the front if it had no left neighbour, else at the
end. A record whose id is in the list already is left alone, so restoring twice does no more than
restoring once.
-/
namespace Recall

/-- A deleted record with the ids of its neighbours. -/
structure Anchor (α : Type) where
  item : α
  before : Option String
  after : Option String
  deriving DecidableEq, Repr

namespace Undo

/-- The anchors of the records to be deleted, in list order; `before` is the id on the left. -/
def captureFrom {α : Type} (id : α → String) (deleted : List String) (before : Option String) :
    List α → List (Anchor α)
  | [] => []
  | a :: r =>
    let rest := captureFrom id deleted (some (id a)) r
    if deleted.contains (id a) then ⟨a, before, r.head?.map id⟩ :: rest else rest

/-- The anchors of the records to be deleted. -/
def capture {α : Type} (id : α → String) (items : List α) (deleted : List String) :
    List (Anchor α) :=
  captureFrom id deleted none items

/-- The position of the last record with an id. -/
def lastIndex? {α : Type} (id : α → String) (key : String) : List α → Option Nat
  | [] => none
  | a :: r =>
    match lastIndex? id key r with
    | some i => some (i + 1)
    | none => if id a = key then some 0 else none

/-- Where the record of an anchor belongs in a list. -/
def position {α : Type} (id : α → String) (items : List α) (a : Anchor α) : Nat :=
  match a.before.bind fun key => lastIndex? id key items with
  | some i => i + 1
  | none =>
    match a.after.bind fun key => lastIndex? id key items with
    | some i => i
    | none => if a.before.isNone then 0 else items.length

theorem lastIndex?_lt {α : Type} (id : α → String) (key : String) :
    ∀ (items : List α) {i : Nat}, lastIndex? id key items = some i → i < items.length
  | [], i, h => by simp [lastIndex?] at h
  | a :: r, i, h => by
      rw [lastIndex?] at h
      split at h
      · rename_i j hj
        have := lastIndex?_lt id key r hj
        simp at h ⊢
        omega
      · split at h <;> simp at h ⊢
        omega

theorem position_le {α : Type} (id : α → String) (items : List α) (a : Anchor α) :
    position id items a ≤ items.length := by
  unfold position
  split
  · rename_i i hi
    obtain ⟨key, -, hkey⟩ := Option.bind_eq_some_iff.mp hi
    have := lastIndex?_lt id key items hkey
    omega
  · split
    · rename_i i hi
      obtain ⟨key, -, hkey⟩ := Option.bind_eq_some_iff.mp hi
      exact Nat.le_of_lt (lastIndex?_lt id key items hkey)
    · split
      · exact Nat.zero_le _
      · exact Nat.le_refl _

/-- A list that is being restored, with the ids that are in it. The ids are kept up to date beside
the list, so that a step need not collect them again. -/
structure Restoring {α : Type} (id : α → String) where
  items : List α
  present : List String
  mem_present : ∀ key, key ∈ present ↔ key ∈ items.map id

/-- Puts the record of an anchor back, unless its id is there. -/
def restoreOne {α : Type} {id : α → String} (s : Restoring id) (a : Anchor α) : Restoring id :=
  if s.present.contains (id a.item) then s
  else
    { items := s.items.insertIdx (position id s.items a) a.item
      present := id a.item :: s.present
      mem_present := fun key => by
        have := s.mem_present key
        simp only [List.mem_map, List.mem_cons, List.mem_insertIdx (position_le id s.items a)]
          at this ⊢
        rw [this]
        constructor
        · rintro (rfl | ⟨b, hb, rfl⟩)
          · exact ⟨a.item, .inl rfl, rfl⟩
          · exact ⟨b, .inr hb, rfl⟩
        · rintro ⟨b, rfl | hb, rfl⟩
          · exact .inl rfl
          · exact .inr ⟨b, hb, rfl⟩ }

/-- Puts the records of anchors back, in their order. -/
def restore {α : Type} (id : α → String) (items : List α) (anchors : List (Anchor α)) : List α :=
  let start : Restoring id := ⟨items, items.map id, fun _ => .rfl⟩
  (anchors.foldl restoreOne start).items

end Undo

end Recall
