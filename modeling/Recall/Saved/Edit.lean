/-
Recall.Saved.Edit — editing a list of saved searches.

Every edit finds its search by the first one with an id. Edits that change nothing say so.
-/
import Recall.Saved.Basic
import Recall.Selection.Edit

namespace Recall

namespace Saved

/-- The list with the first search of an id replaced, or nothing when there is none. -/
def replaceFirst? (id : String) (f : SavedSearch → SavedSearch) :
    List SavedSearch → Option (List SavedSearch)
  | [] => none
  | s :: r => if s.id = id then some (f s :: r) else (replaceFirst? id f r).map (s :: ·)

/-- The first search with an id. -/
def find? (id : String) (searches : List SavedSearch) : Option SavedSearch :=
  searches.find? fun s => s.id == id

/-- Replaces the search with the same id, or puts a new one in front. -/
def upsert (searches : List SavedSearch) (s : SavedSearch) : List SavedSearch :=
  (replaceFirst? s.id (fun _ => s) searches).getD (s :: searches)

/-- Gives a search another name at a time. Blank names, unknown ids and names that are the same
change nothing. -/
def rename (searches : List SavedSearch) (id newName now : String) : Edit (List SavedSearch) :=
  let name := cleanName newName
  if name = "" ∨ (find? id searches).any fun s => s.name == name then .unchanged
  else
    Edit.ofOption
      (replaceFirst? id (fun s => { s with name := name, updatedAt := now }) searches)

/-- Pins a search or takes the pin away, at a time. -/
def togglePin (searches : List SavedSearch) (id now : String) : Edit (List SavedSearch) :=
  Edit.ofOption
    (replaceFirst? id (fun s => { s with pinned := !s.pinned, updatedAt := now }) searches)

/-- Removes every search with an id. -/
def delete (searches : List SavedSearch) (id : String) : Edit (List SavedSearch) :=
  if searches.any fun s => s.id == id then .changed (searches.filter fun s => s.id != id)
  else .unchanged

end Saved

end Recall
