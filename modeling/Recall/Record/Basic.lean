/-
Recall.Record.Basic — the records of a workspace.

Fields whose values come from a fixed vocabulary are strings here; `Recall.Decode` is where stored
values are held to their vocabularies.
-/
import Recall.Record.Kind
import Recall.Text.Case

namespace Recall

/-- A source cited by an answer. -/
structure Citation where
  title : String
  url : String
  deriving DecidableEq, Repr

/-- A question with its answer. -/
structure Thread where
  id : String
  question : String
  answer : String := ""
  mode : String := "quick"
  sources : String := "none"
  createdAt : String := ""
  citations : List Citation := []
  title : Option String := none
  tags : List String := []
  spaceId : Option String := none
  spaceName : Option String := none
  pinned : Bool := false
  favorite : Bool := false
  archived : Bool := false
  provider : String := ""
  latencyMs : Int := 0
  deriving DecidableEq, Repr

/-- A workspace that groups threads and tasks. -/
structure Space where
  id : String
  name : String
  instructions : String := ""
  preferredModel : Option String := none
  sourcePolicy : String := "flex"
  createdAt : String := ""
  deriving DecidableEq, Repr

/-- A named collection of threads. -/
structure Collection where
  id : String
  name : String
  createdAt : String := ""
  deriving DecidableEq, Repr

/-- An uploaded file with the text extracted from it. -/
structure LibraryFile where
  id : String
  name : String
  size : Int := 0
  type : String := ""
  text : String := ""
  addedAt : String := ""
  deriving DecidableEq, Repr

/-- A scheduled prompt. -/
structure Task where
  id : String
  name : String
  prompt : String := ""
  cadence : String := "daily"
  time : String := "09:00"
  mode : String := "quick"
  sources : String := "none"
  createdAt : String := ""
  nextRun : String := ""
  lastRun : Option String := none
  lastThreadId : Option String := none
  dayOfWeek : Option Int := none
  dayOfMonth : Option Int := none
  monthOfYear : Option Int := none
  spaceId : Option String := none
  spaceName : Option String := none
  deriving DecidableEq, Repr

/-- A record of any kind. -/
inductive Record where
  | thread (t : Thread)
  | space (s : Space)
  | collection (c : Collection)
  | file (f : LibraryFile)
  | task (t : Task)
  deriving DecidableEq, Repr

namespace Thread

/-- The title shown in lists: the question when there is no title. -/
def displayTitle (t : Thread) : String :=
  match t.title with
  | some title => if title = "" then t.question else title
  | none => t.question

/-- Whether the attribute with a name is set: a flag that is on, a text or list that is not empty,
a number other than zero. Names that are no attribute are not set. -/
def isSet (t : Thread) (name : String) : Bool :=
  match name with
  | "pinned" => t.pinned
  | "favorite" => t.favorite
  | "archived" => t.archived
  | "id" => t.id != ""
  | "question" => t.question != ""
  | "answer" => t.answer != ""
  | "mode" => t.mode != ""
  | "sources" => t.sources != ""
  | "created_at" => t.createdAt != ""
  | "citations" => !t.citations.isEmpty
  | "title" => (t.title.getD "") != ""
  | "tags" => !t.tags.isEmpty
  | "space_id" => (t.spaceId.getD "") != ""
  | "space_name" => (t.spaceName.getD "") != ""
  | "provider" => t.provider != ""
  | "latency_ms" => t.latencyMs != 0
  | "display_title" => t.displayTitle != ""
  | _ => false

end Thread

namespace Record

/-- The kind of a record. -/
def kind : Record → Kind
  | .thread _ => .thread
  | .space _ => .space
  | .collection _ => .collection
  | .file _ => .file
  | .task _ => .task

/-- The id of a record. -/
def id : Record → String
  | .thread t => t.id
  | .space s => s.id
  | .collection c => c.id
  | .file f => f.id
  | .task t => t.id

/-- The timestamp that dates a record. -/
def createdAt : Record → String
  | .thread t => t.createdAt
  | .space s => s.createdAt
  | .collection c => c.createdAt
  | .file f => f.addedAt
  | .task t => t.createdAt

/-- The line under which a record is listed. -/
def title : Record → String
  | .thread t => t.displayTitle
  | .space s => s.name
  | .collection c => c.name
  | .file f => f.name
  | .task t => t.name

end Record

end Recall
