/-
Recall.Record.Kind — the five kinds of records, and the names under which they are asked for.
-/
namespace Recall

/-- The kinds of records, in the order in which results are presented. -/
inductive Kind where
  | thread
  | space
  | collection
  | file
  | task
  deriving DecidableEq, Repr, Inhabited

namespace Kind

/-- Every kind, in order. -/
def all : List Kind := [.thread, .space, .collection, .file, .task]

/-- The name of a kind. -/
def name : Kind → String
  | .thread => "thread"
  | .space => "space"
  | .collection => "collection"
  | .file => "file"
  | .task => "task"

/-- The name of the records of a kind together, which is also the name of the filter that keeps
only them. -/
def plural : Kind → String
  | .thread => "threads"
  | .space => "spaces"
  | .collection => "collections"
  | .file => "files"
  | .task => "tasks"

/-- The heading above the results of a kind. -/
def heading : Kind → String
  | .thread => "Threads"
  | .space => "Spaces"
  | .collection => "Collections"
  | .file => "Files"
  | .task => "Tasks"

/-- The kind with a name, singular or plural. -/
def ofName? (s : String) : Option Kind :=
  all.find? fun k => s == k.name || s == k.plural

/-- The kind that a filter keeps; the filter `all` and unknown filters keep every kind. -/
def ofFilter? (s : String) : Option Kind :=
  all.find? fun k => s == k.plural

end Kind

/-- The states that a query may ask of a thread. -/
inductive State where
  | pinned
  | favorite
  | archived
  deriving DecidableEq, Repr

namespace State

/-- The name of a state. -/
def name : State → String
  | .pinned => "pinned"
  | .favorite => "favorite"
  | .archived => "archived"

/-- The state with a name. -/
def ofName? (s : String) : Option State :=
  [.pinned, .favorite, .archived].find? fun st => s == st.name

end State

end Recall
