/-
Recall.Search.Filter — which entries a query keeps.

Each kind of record supports some families of operators. An operator of a family that a kind does
not support rejects every record of that kind, so that a query about notes finds no files. What is
supported is then checked: kind, window, free text, space, tags, note, citation and states.
-/
import Recall.Query.Basic
import Recall.Search.Entry
import Recall.Time.Window

namespace Recall

/-- The families of operators that a kind may or may not support. -/
inductive Family where
  | has
  | tags
  | space
  | states
  deriving DecidableEq, Repr

namespace Family

/-- Every family. -/
def all : List Family := [.has, .tags, .space, .states]

/-- Whether operators of the family are used. -/
def usedBy (o : Operators) : Family → Bool
  | .has => o.usesHas
  | .tags => o.usesTags
  | .space => o.usesSpace
  | .states => o.usesStates

end Family

/-- The families that make sense for a kind. -/
def Kind.supports : Kind → Family → Bool
  | .thread, _ => true
  | .space, f => f == .tags || f == .space
  | .task, f => f == .space
  | .collection, _ => false
  | .file, _ => false

namespace Entry

/-- Whether the kind is the one asked for, if one is, and supports every family that is used. -/
def inScope (o : Operators) (e : Entry) : Bool :=
  (o.kind.all fun name => name == e.kind.name) &&
    Family.all.all fun f => !f.usedBy o || e.kind.supports f

/-- Whether the entry belongs to the space asked for: the name asked for is part of the space's
name, or the id is the space's id. Either is enough, and a space without a name or an id cannot be
met by it. -/
def inSpace (o : Operators) (e : Entry) : Bool :=
  !o.usesSpace ||
    (o.space.any fun name =>
      e.spaceName != "" && Text.occursIn (Text.lower (Text.trim name)) e.spaceName) ||
    (o.spaceId.any fun id => e.spaceId != "" && Text.lower (Text.trim id) == e.spaceId)

/-- Whether the entry has every tag asked for and none that is excluded. -/
def hasTags (o : Operators) (e : Entry) : Bool :=
  (o.tags.all fun t => e.tags.contains t) && !o.notTags.any fun t => e.tags.contains t

/-- Whether a facet is as asked for. -/
def facetAllowed (wanted excluded present : Bool) : Bool :=
  (!wanted || present) && !(excluded && present)

/-- Whether note and citations are as asked for. -/
def hasFacets (o : Operators) (e : Entry) : Bool :=
  facetAllowed o.hasNote o.notHasNote (e.note != "") &&
    facetAllowed o.hasCitation o.notHasCitation (!e.citations.isEmpty)

/-- Whether the entry is in every state asked for and in none that is excluded. -/
def hasStates (o : Operators) (e : Entry) : Bool :=
  (o.states.all e.isSet) && !o.notStates.any e.isSet

/-- Whether a query keeps the entry. -/
def accepted (q : Query) (window : String) (now : Int) (e : Entry) : Bool :=
  e.inScope q.operators && Window.admits window e.instant now &&
    q.needle.matchesLowered e.combined && e.inSpace q.operators && e.hasTags q.operators &&
    e.hasFacets q.operators && e.hasStates q.operators

/-- The entries that a query keeps, in order. -/
def filter (q : Query) (window : String) (now : Int) (entries : List Entry) : List Entry :=
  entries.filter (accepted q window now)

end Entry

end Recall
