/-
Recall.Decode.Records — stored lists of records.

A list is read entry by entry: what is not an object with a string id that is not blank is dropped,
and so is an entry whose trimmed id was there before. `identified` is that list of ids with their
members; each kind of record is then built from members field by field.
-/
import Recall.Decode.Coerce
import Recall.Record.Basic
import Recall.Selection.Basic

namespace Recall

/-- The members of a stored object. -/
abbrev Members := List (String × Json)

namespace Decode

/-! ## 1. Entries with an id -/

/-- The id and the members of an entry that has a usable id. -/
def identify? : Json → Option (String × Members)
  | .obj members => (trimmed? (Json.field members "id")).map fun id => (id, members)
  | _ => none

/-- The pairs without those whose key was there before. -/
def firstOfKey {α : Type} : List (String × α) → List (String × α)
  | [] => []
  | a :: r => a :: (firstOfKey r).filter fun b => b.1 != a.1

/-- The usable entries of a stored list with their ids, which are distinct. -/
def identified : Json → List (String × Members)
  | .arr items => firstOfKey (items.filterMap identify?)
  | _ => []

/-! ## 2. Vocabularies -/

def answerModes : List String := ["quick", "research", "learn"]
def sourceModes : List String := ["web", "none"]
def sourcePolicies : List String := ["web", "flex", "offline"]
def cadences : List String := ["daily", "weekly", "weekday", "monthly", "yearly"]

/-! ## 3. Records -/

/-- A citation, which must have an address; the address stands in for a missing title. -/
def citation? : Json → Option Citation
  | .obj members =>
    let url := Text.trim (text (Json.field members "url") "")
    let title := Text.trim (text (Json.field members "title") "")
    if url = "" then none else some ⟨if title = "" then url else title, url⟩
  | _ => none

/-- The usable citations of a list. -/
def citations : Json → List Citation
  | .arr items => items.filterMap citation?
  | _ => []

/-- A name, or a name that says what kind of thing has none. -/
def name (members : Members) (what : String) : String :=
  (trimmed? (Json.field members "name")).getD ("Untitled " ++ what)

/-- The timestamp of a record; the epoch when it cannot be read. -/
def created (members : Members) (key : String) : String :=
  timestamp (Json.field members key) Timestamp.epochText

/-- The thread with an id and members. -/
def thread (id : String) (members : Members) : Thread :=
  let get := Json.field members
  { id := id
    question := text (get "question") "Untitled thread"
    answer := text (get "answer") ""
    mode := choice answerModes "quick" (get "mode")
    sources := choice sourceModes "none" (get "sources")
    createdAt := created members "createdAt"
    citations := citations (get "citations")
    title := text? (get "title")
    tags := textList (get "tags")
    spaceId := text? (get "spaceId")
    spaceName := text? (get "spaceName")
    pinned := flag (get "pinned")
    favorite := flag (get "favorite")
    archived := flag (get "archived")
    provider := text (get "provider") ""
    latencyMs := amount (get "latencyMs") }

/-- The space with an id and members. -/
def space (id : String) (members : Members) : Space :=
  let get := Json.field members
  { id := id
    name := name members "space"
    instructions := text (get "instructions") ""
    preferredModel := text? (get "preferredModel")
    sourcePolicy := choice sourcePolicies "flex" (get "sourcePolicy")
    createdAt := created members "createdAt" }

/-- The collection with an id and members. -/
def collection (id : String) (members : Members) : Collection :=
  { id := id
    name := name members "collection"
    createdAt := created members "createdAt" }

/-- The file with an id and members. -/
def file (id : String) (members : Members) : LibraryFile :=
  let get := Json.field members
  { id := id
    name := name members "file"
    size := amount (get "size")
    type := text (get "type") ""
    text := text (get "text") ""
    addedAt := created members "addedAt" }

/-- The task with an id and members. -/
def task (id : String) (members : Members) : Except DecodeError Task := do
  let get := Json.field members
  let createdAt := created members "createdAt"
  return {
    id := id
    name := name members "task"
    prompt := text (get "prompt") ""
    cadence := choice cadences "daily" (get "cadence")
    time := ← clock (get "time")
    mode := choice answerModes "quick" (get "mode")
    sources := choice sourceModes "none" (get "sources")
    createdAt := createdAt
    nextRun := timestamp (get "nextRun") createdAt
    lastRun := if (get "lastRun").isNull then none
      else some (timestamp (get "lastRun") Timestamp.epochText)
    lastThreadId := text? (get "lastThreadId")
    dayOfWeek := bounded? 0 7 (get "dayOfWeek")
    dayOfMonth := bounded? 1 31 (get "dayOfMonth")
    monthOfYear := bounded? 1 12 (get "monthOfYear")
    spaceId := text? (get "spaceId")
    spaceName := text? (get "spaceName") }

/-! ## 4. Lists of records -/

/-- The threads of a stored list. -/
def threads (j : Json) : List Thread :=
  (identified j).map fun (id, members) => thread id members

/-- The spaces of a stored list. -/
def spaces (j : Json) : List Space :=
  (identified j).map fun (id, members) => space id members

/-- The collections of a stored list. -/
def collections (j : Json) : List Collection :=
  (identified j).map fun (id, members) => collection id members

/-- The files of a stored list. -/
def files (j : Json) : List LibraryFile :=
  (identified j).map fun (id, members) => file id members

/-- The tasks of a stored list. -/
def tasks (j : Json) : Except DecodeError (List Task) :=
  (identified j).mapM fun (id, members) => task id members

/-! ## 5. Maps and lists of ids -/

/-- The members of an object whose trimmed key is not blank and whose value is usable, under their
trimmed keys; of equal keys the last value counts. -/
def keyed {α : Type} (usable? : Json → Option α) : Json → List (String × α)
  | .obj members => members.foldl (fun done (key, value) =>
      if Text.isBlank key then done
      else match usable? value with
        | some a => Json.put done (Text.trim key) a
        | none => done) []
  | _ => []

/-- The notes kept under thread ids; blank notes are dropped. -/
def notes (j : Json) : List (String × String) :=
  keyed text? j

/-- The tags kept under space ids. -/
def spaceTags (j : Json) : List (String × List String) :=
  keyed (fun v => some (textList v)) j

/-- The ids of selected threads. -/
def selectedIds (j : Json) : List String :=
  textList j

/-- The queries typed last: the first `limit` texts of a list, as `Selection.upTo` counts them. -/
def recent (limit : Int) (j : Json) : List String :=
  Selection.upTo limit (textList j)

/-- The stored choice of asking for phrases. -/
def verbatim (j : Json) : Bool :=
  flag j

end Decode

end Recall
