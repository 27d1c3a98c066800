/-
Recall.Search.Entry — records prepared for searching.

An entry holds a record with what a search asks of it again and again: its instant, its texts
lowered together for matching and one by one for scoring, and its space and tags lowered. The texts
are the same on both sides, so what matches also scores.
-/
import Recall.Record.Basic
import Recall.Search.Badge
import Recall.Search.Score
import Recall.Time.Timestamp

namespace Recall

/-- A record prepared for searching. Texts are lowered, except the note, which is trimmed. -/
structure Entry where
  record : Record
  instant : Option Int
  combined : String
  fields : List Field
  spaceName : String := ""
  spaceId : String := ""
  tags : List String := []
  note : String := ""
  deriving DecidableEq, Repr

namespace Entry

/-! ## 1. What every entry has -/

/-- The kind of the record. -/
def kind (e : Entry) : Kind :=
  e.record.kind

/-- The id of the record. -/
def id (e : Entry) : String :=
  e.record.id

/-- The timestamp by which entries are sorted; one that cannot be read counts as the epoch. -/
def timestamp (e : Entry) : Int :=
  e.instant.getD 0

/-- The tags that are not blank, trimmed and lowered, each once. -/
def tagSet (tags : List String) : List String :=
  Text.distinct ((tags.filter fun t => !Text.isBlank t).map fun t => Text.lower (Text.trim t))

/-- The citations of the record. -/
def citations (e : Entry) : List Citation :=
  match e.record with
  | .thread t => t.citations
  | _ => []

/-- Whether the record is a thread in a state, or has the attribute of that name. -/
def isSet (e : Entry) (name : String) : Bool :=
  match e.record with
  | .thread t => t.isSet name
  | _ => false

/-- The texts of a thread that badges are given for. -/
def facets? (e : Entry) : Option Facets :=
  match e.record with
  | .thread t => some {
      title := t.title
      question := t.question
      answer := t.answer
      tags := t.tags
      spaceName := t.spaceName
      note := if e.note = "" then none else some e.note
      citationText := Badge.citationText t.citations }
  | _ => none

/-! ## 2. One entry of each kind -/

/-- The entry of a thread with its note. -/
def ofThread (t : Thread) (note : Option String) : Entry :=
  let note := Text.trim (note.getD "")
  let cited := Badge.citationText t.citations
  let tags := Text.join " " t.tags
  { record := .thread t
    instant := Timestamp.parse? t.createdAt
    combined := Needle.combine
      [t.title, some t.question, some t.answer, some tags, t.spaceName, some note, some cited]
    fields := Score.lowerFields [
      ⟨t.title.getD "", Score.titleWeight⟩, ⟨t.question, Score.questionWeight⟩,
      ⟨tags, Score.tagWeight⟩, ⟨t.spaceName.getD "", Score.spaceWeight⟩,
      ⟨note, Score.noteWeight⟩, ⟨cited, Score.bodyWeight⟩, ⟨t.answer, Score.bodyWeight⟩]
    spaceName := Text.lower (t.spaceName.getD "")
    spaceId := Text.lower (t.spaceId.getD "")
    tags := tagSet t.tags
    note := note }

/-- The entry of a space with its tags. -/
def ofSpace (s : Space) (tags : List String) : Entry :=
  let tags := tags.filter fun t => t != ""
  let tagText := Text.join " " tags
  { record := .space s
    instant := Timestamp.parse? s.createdAt
    combined := Needle.combine [some s.name, some s.instructions, some tagText]
    fields := Score.lowerFields [
      ⟨s.name, Score.nameWeight⟩, ⟨tagText, Score.tagWeight⟩, ⟨s.instructions, Score.bodyWeight⟩]
    spaceName := Text.lower s.name
    spaceId := Text.lower s.id
    tags := tagSet tags }

/-- The entry of a collection. -/
def ofCollection (c : Collection) : Entry :=
  { record := .collection c
    instant := Timestamp.parse? c.createdAt
    combined := Needle.combine [some c.name]
    fields := Score.lowerFields [⟨c.name, Score.nameWeight⟩] }

/-- The entry of a file. -/
def ofFile (f : LibraryFile) : Entry :=
  { record := .file f
    instant := Timestamp.parse? f.addedAt
    combined := Needle.combine [some f.name, some f.text]
    fields := Score.lowerFields [⟨f.name, Score.nameWeight⟩, ⟨f.text, Score.bodyWeight⟩] }

/-- The entry of a task. -/
def ofTask (t : Task) : Entry :=
  { record := .task t
    instant := Timestamp.parse? t.createdAt
    combined := Needle.combine
      [some t.name, some t.prompt, t.spaceName, some t.mode, some t.cadence]
    fields := Score.lowerFields [
      ⟨t.name, Score.nameWeight⟩, ⟨t.spaceName.getD "", Score.spaceWeight⟩,
      ⟨t.prompt, Score.bodyWeight⟩, ⟨t.mode, Score.metaWeight⟩, ⟨t.cadence, Score.metaWeight⟩]
    spaceName := Text.lower (t.spaceName.getD "")
    spaceId := Text.lower (t.spaceId.getD "") }

end Entry

/-- The value of a key in a list of pairs; the first pair counts. -/
def assoc? {α : Type} (key : String) : List (String × α) → Option α
  | [] => none
  | (k, v) :: rest => if k = key then some v else assoc? key rest

namespace Entry

/-- The entries of threads, each with the note kept under its id. -/
def ofThreads (threads : List Thread) (notes : List (String × String)) : List Entry :=
  threads.map fun t => ofThread t (assoc? t.id notes)

/-- The entries of spaces, each with the tags kept under its id. -/
def ofSpaces (spaces : List Space) (tags : List (String × List String)) : List Entry :=
  spaces.map fun s => ofSpace s ((assoc? s.id tags).getD [])

end Entry

end Recall
