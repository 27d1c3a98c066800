/-
Recall.Storage.Dataset — the records that a search runs over, read from a storage export.

An export keeps each part under a key of its own. Keys that are not known are ignored. Saved
searches may also stand under an older key, which is read when there is nothing under the newer.

Records hold strings, so an export with half of a surrogate pair in a text has no dataset.
-/
import Recall.Decode.Records
import Recall.Saved.Stored
import Recall.Storage.Load

namespace Recall

/-- What is stored under a key: a value, perhaps its JSON text, or the bytes of one. -/
inductive Stored where
  | value (j : Json)
  | bytes (bs : List UInt8)

/-- Everything that a search can see. -/
structure Dataset where
  threads : List Thread := []
  spaces : List Space := []
  collections : List Collection := []
  files : List LibraryFile := []
  tasks : List Task := []
  notes : List (String × String) := []
  spaceTags : List (String × List String) := []
  recent : List String := []
  saved : List SavedSearch := []
  verbatim : Bool := false
  deriving DecidableEq, Repr

namespace Storage

/-! ## 1. Keys -/

def threadsKey : String := "signal-history-v2"
def spacesKey : String := "signal-spaces-v1"
def spaceTagsKey : String := "signal-space-tags-v1"
def tasksKey : String := "signal-tasks-v1"
def filesKey : String := "signal-files-v1"
def collectionsKey : String := "signal-collections-v1"
def notesKey : String := "signal-notes-v1"
def recentKey : String := "signal-unified-recent-v1"
def savedKey : String := "signal-unified-saved-searches-v1"
def olderSavedKey : String := "signal-unified-saved-v1"
def verbatimKey : String := "signal-unified-verbatim-v1"

/-! ## 2. Reading an export -/

/-- Why an export cannot be read. -/
inductive Error where
  | load (l : Json.Limit)
  /-- A text holds half of a surrogate pair. -/
  | half
  | decode (e : DecodeError)
  deriving DecidableEq, Repr

/-- What was loaded, as records may hold it. -/
def whole (loaded : Except Json.Limit Json.Raw) : Except Error Json := do
  match (← loaded.mapError .load).whole? with
  | some j => return j
  | none => .error .half

/-- The value that is stored; `null` stands for one that is missing or corrupt. -/
def load (depth : Nat) : Option Stored → Except Error Json
  | none => .ok .null
  | some (.value (.str s)) => whole (loadText depth (Symbol.ofChars s.toList) .null)
  | some (.value j) => .ok j
  | some (.bytes bs) => whole (loadBytes depth bs .null)

/-- The stored value under a key. -/
def read (depth : Nat) (blobs : List (String × Stored)) (key : String) : Except Error Json :=
  load depth (assocStored? key blobs)
where
  /-- The first pair with a key. -/
  assocStored? (key : String) : List (String × Stored) → Option Stored
    | [] => none
    | (k, v) :: rest => if k = key then some v else assocStored? key rest

/-- The stored saved searches, under the newer key or else the older. -/
def readSaved (depth : Nat) (blobs : List (String × Stored)) : Except Error Json := do
  let j ← read depth blobs savedKey
  if j.isNull then read depth blobs olderSavedKey else return j

/-- The dataset of an export. `now` dates saved searches without dates. -/
def dataset (depth : Nat) (blobs : List (String × Stored)) (now : String) :
    Except Error Dataset := do
  let saved ← readSaved depth blobs
  return {
    threads := Decode.threads (← read depth blobs threadsKey)
    spaces := Decode.spaces (← read depth blobs spacesKey)
    collections := Decode.collections (← read depth blobs collectionsKey)
    files := Decode.files (← read depth blobs filesKey)
    tasks := ← (Decode.tasks (← read depth blobs tasksKey)).mapError .decode
    notes := Decode.notes (← read depth blobs notesKey)
    spaceTags := Decode.spaceTags (← read depth blobs spaceTagsKey)
    recent := Decode.recent Selection.recentLimit (← read depth blobs recentKey)
    saved := Saved.decode saved now
    verbatim := Decode.verbatim (← read depth blobs verbatimKey) }

end Storage

end Recall
