/-
Recall.Selection.Edit — edits that know when they change nothing.

A caller who keeps a list on screen has no work to do when an edit left it as it was. So an edit
says whether it gave back the very value it was given.
-/
namespace Recall

/-- What an edit of a value gives back. -/
inductive Edit (α : Type) where
  /-- The value that was given. -/
  | unchanged
  /-- Another value. -/
  | changed (new : α)
  deriving DecidableEq, Repr

namespace Edit

/-- The value after an edit of `old`. -/
def get {α : Type} (old : α) : Edit α → α
  | .unchanged => old
  | .changed new => new

/-- The edit that gives another value if there is one. -/
def ofOption {α : Type} : Option α → Edit α
  | none => .unchanged
  | some new => .changed new

/-- Whether the value that was given came back. -/
def isUnchanged {α : Type} : Edit α → Bool
  | .unchanged => true
  | .changed _ => false

@[simp] theorem get_unchanged {α : Type} (old : α) : (unchanged : Edit α).get old = old := rfl

@[simp] theorem get_changed {α : Type} (old new : α) : (changed new).get old = new := rfl

end Edit

end Recall
