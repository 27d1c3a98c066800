/-
Recall.Selection.Basic — the selected ids of a list, updates of the selected records, and the
queries typed last.

Selections are lists of ids in the order in which they were selected. Where a step changes nothing
it says so (`Recall.Selection.Edit`).
-/
import Recall.Selection.Edit
import Recall.Text.Chars

namespace Recall

namespace Selection

/-! ## 1. Selected ids -/

/-- Drops the ids that are no longer valid. -/
def prune (selected valid : List String) : Edit (List String) :=
  if selected.all valid.contains then .unchanged
  else .changed (selected.filter valid.contains)

/-- Adds the visible ids that are not selected behind the others, each once. -/
def enable (selected visible : List String) : Edit (List String) :=
  match Text.distinct (visible.filter fun id => !selected.contains id) with
  | [] => .unchanged
  | added => .changed (selected ++ added)

/-- Removes the visible ids. -/
def disable (selected visible : List String) : Edit (List String) :=
  if selected.any visible.contains then
    .changed (selected.filter fun id => !visible.contains id)
  else .unchanged

/-- Selects or deselects everything visible. -/
def toggle (selected visible : List String) (on : Bool) : Edit (List String) :=
  if on then enable selected visible else disable selected visible

/-- The selected ids that still exist, in the order of their selection, and how many do not. -/
structure Active where
  ids : List String
  missing : Nat
  deriving DecidableEq, Repr

/-- Splits a selection by the ids that exist. -/
def active (selected existing : List String) : Active :=
  let ids := selected.filter existing.contains
  ⟨ids, selected.length - ids.length⟩

/-! ## 2. Updates of the selected records -/

/-- Updates a record if it is selected. -/
def updateOne {α : Type} (id : α → String) (selected : List String) (f : α → α) (a : α) : Edit α :=
  if selected.contains (id a) then .changed (f a) else .unchanged

/-- Updates the selected records and leaves the others. -/
def update {α : Type} (id : α → String) (selected : List String) (f : α → α) (items : List α) :
    List α :=
  items.map fun a => (updateOne id selected f a).get a

/-! ## 3. The space of a thread -/

/-- The space that is kept with a thread; both parts are missing for no space. -/
structure Assignment where
  spaceId : Option String
  spaceName : Option String
  deriving DecidableEq, Repr

/-- The assignment of the first space with an id. A record whose id or name cannot be read is an
error when it is reached. -/
def assignTo {α ε : Type} (id : α → Except ε String) (name : α → Except ε (Option String))
    (target : String) : List α → Except ε Assignment
  | [] => .ok ⟨none, none⟩
  | a :: r => do
    if (← id a) = target then return ⟨some target, ← name a⟩
    else assignTo id name target r

/-- The assignment for an id as chosen by the user: trimmed, and no space when it is blank. -/
def assign {α ε : Type} (id : α → Except ε String) (name : α → Except ε (Option String))
    (chosen : String) (spaces : List α) : Except ε Assignment :=
  if Text.isBlank chosen then .ok ⟨none, none⟩ else assignTo id name (Text.trim chosen) spaces

/-! ## 4. Queries typed last -/

/-- The number of queries that are kept unless a caller says otherwise. -/
def recentLimit : Int := 5

/-- The first `limit` elements; a negative limit drops as many from the end. -/
def upTo {α : Type} (limit : Int) (as : List α) : List α :=
  if 0 ≤ limit then as.take limit.toNat else as.take (as.length - limit.natAbs)

/-- Puts a query in front of the others; a blank one changes nothing. -/
def pushRecent (recent : List String) (value : String) (limit : Int) : Edit (List String) :=
  if Text.isBlank value then .unchanged
  else
    let q := Text.trim value
    .changed (upTo limit (q :: recent.filter fun r => r != q))

end Selection

end Recall
