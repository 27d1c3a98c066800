/-
Recall.Search.Badge — which parts of a thread a needle was found in.

Badges come in a fixed order: title, or question for a thread without a title, then tag, space,
note, citation and answer.
-/
import Recall.Query.Needle
import Recall.Record.Basic

namespace Recall

/-- The parts of a thread that a badge can stand for. -/
inductive Badge where
  | title
  | question
  | tag
  | space
  | note
  | citation
  | answer
  deriving DecidableEq, Repr

/-- The name of a badge. -/
def Badge.name : Badge → String
  | .title => "title"
  | .question => "question"
  | .tag => "tag"
  | .space => "space"
  | .note => "note"
  | .citation => "citation"
  | .answer => "answer"

/-- The texts of a thread that badges are given for. -/
structure Facets where
  title : Option String := none
  question : String := ""
  answer : String := ""
  tags : List String := []
  spaceName : Option String := none
  note : Option String := none
  citationText : String := ""
  deriving DecidableEq, Repr

namespace Needle

/-- Whether a text has the phrase or any of the words. -/
def touches (n : Needle) (text : String) : Bool :=
  let lowered := Text.lower text
  text != "" && ((n.phrase != "" && Text.occursIn n.phrase lowered) ||
    n.words.any fun w => Text.occursIn w lowered)

/-- Whether an optional text has the phrase or any of the words. -/
def touches? (n : Needle) (text : Option String) : Bool :=
  text.any n.touches

end Needle

namespace Badge

/-- Whether a thread earns a badge. Its question counts only when it has no title. -/
def earned (n : Needle) (f : Facets) : Badge → Bool
  | .title => n.touches? f.title
  | .question => (f.title.getD "") == "" && n.touches f.question
  | .tag => f.tags.any n.touches
  | .space => n.touches? f.spaceName
  | .note => n.touches? f.note
  | .citation => n.touches f.citationText
  | .answer => n.touches f.answer

/-- Every badge, in order. -/
def all : List Badge := [.title, .question, .tag, .space, .note, .citation, .answer]

/-- The badges that a thread earns. -/
def ofFacets (n : Needle) (f : Facets) : List Badge :=
  all.filter (earned n f)

/-- The titles and addresses of citations, one to a line; empty ones are left out. -/
def citationText (citations : List Citation) : String :=
  Text.join "\n" ((citations.flatMap fun c => [c.title, c.url]).filter fun s => s != "")

end Badge

end Recall
