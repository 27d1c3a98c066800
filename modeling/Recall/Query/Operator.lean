/-
Recall.Query.Operator — what one token of a query means.

A token `key:value` is an operator when its key is known and its value is one the key can take;
every other token is a word of the free text. A hyphen in front of the key negates the operators
that have a negated form. A value loses the blanks at its ends, then the quotes, then blanks again.

`Term.ofToken` reads one token by itself. What the tokens of a query say together is the fold of
`Operators.add`: lists grow, flags stay on, and of the settings the last one counts.
-/
import Recall.Record.Kind
import Recall.Query.Needle
import Recall.Query.Token

namespace Recall

/-! ## 1. Terms -/

/-- The things that `has:` can ask for. -/
inductive Facet where
  | note
  | citation
  deriving DecidableEq, Repr

/-- The meaning of a token. -/
inductive Term where
  | word (text : String)
  | kind (k : Kind)
  | space (name : String)
  | spaceId (id : String)
  | tag (negated : Bool) (name : String)
  | has (negated : Bool) (facet : Facet)
  | is (negated : Bool) (state : State)
  | verbatim (on : Bool)
  deriving DecidableEq, Repr

/-- The keys of operators. -/
inductive Key where
  | kind
  | space
  | spaceId
  | tag
  | has
  | is
  | verbatim
  deriving DecidableEq, Repr

/-- The key with a lowered name. -/
def Key.ofName? : String → Option Key
  | "type" => some .kind
  | "in" => some .kind
  | "space" => some .space
  | "spaceid" => some .spaceId
  | "space_id" => some .spaceId
  | "tag" => some .tag
  | "has" => some .has
  | "is" => some .is
  | "verbatim" => some .verbatim
  | "exact" => some .verbatim
  | _ => none

/-- The facet with a lowered name. -/
def Facet.ofName? : String → Option Facet
  | "note" => some .note
  | "notes" => some .note
  | "citation" => some .citation
  | "citations" => some .citation
  | "source" => some .citation
  | "sources" => some .citation
  | "cite" => some .citation
  | _ => none

/-- The truth value with a lowered name. -/
def switch? : String → Option Bool
  | "1" => some true
  | "true" => some true
  | "yes" => some true
  | "on" => some true
  | "0" => some false
  | "false" => some false
  | "no" => some false
  | "off" => some false
  | _ => none

namespace Term

/-- The operator with a key and a value, if the key can take it. -/
def ofOperator? (key : Key) (negated : Bool) (value : String) : Option Term :=
  match key with
  | .kind => if negated then none else (Kind.ofName? (Text.lower value)).map .kind
  | .space => if negated then none else some (.space value)
  | .spaceId => if negated then none else some (.spaceId value)
  | .tag => some (.tag negated (Text.lower value))
  | .has => (Facet.ofName? (Text.lower value)).map (.has negated)
  | .is => (State.ofName? (Text.lower value)).map (.is negated)
  | .verbatim => (switch? (Text.lower value)).map fun on => .verbatim (on != negated)

/-- The value of an operator without blanks and quotes at its ends. -/
def cleanValue (cs : List Char) : List Char :=
  Chars.trim (Chars.strip (· == '"') (Chars.trim cs))

/-- The operator that a token is, if it is one. The key ends at the first colon and is not empty. -/
def operator? (token : List Char) : Option Term :=
  match token.dropWhile (· != ':') with
  | [] => none
  | _ :: rest =>
    let (negated, name) := match token.takeWhile (· != ':') with
      | '-' :: name => (true, name)
      | name => (false, name)
    let value := cleanValue rest
    if value.isEmpty then none
    else do
      let key ← Key.ofName? (String.ofList (Chars.lower name))
      ofOperator? key negated (String.ofList value)

/-- The meaning of a token. -/
def ofToken (token : String) : Term :=
  (operator? token.toList).getD (.word token)

/-- The text of a word. -/
def word? : Term → Option String
  | .word text => some text
  | _ => none

end Term

/-! ## 2. Operators -/

/-- What the operators of a query ask for. The kind and the states are kept by name. -/
structure Operators where
  kind : Option String := none
  space : Option String := none
  spaceId : Option String := none
  tags : List String := []
  notTags : List String := []
  states : List String := []
  notStates : List String := []
  hasNote : Bool := false
  notHasNote : Bool := false
  hasCitation : Bool := false
  notHasCitation : Bool := false
  verbatim : Option Bool := none
  deriving DecidableEq, Repr, Inhabited

namespace Operators

/-- The operators with one more term. -/
def add (o : Operators) : Term → Operators
  | .word _ => o
  | .kind k => { o with kind := some k.name }
  | .space name => { o with space := some name }
  | .spaceId id => { o with spaceId := some id }
  | .tag false name => { o with tags := o.tags ++ [name] }
  | .tag true name => { o with notTags := o.notTags ++ [name] }
  | .has false .note => { o with hasNote := true }
  | .has true .note => { o with notHasNote := true }
  | .has false .citation => { o with hasCitation := true }
  | .has true .citation => { o with notHasCitation := true }
  | .is false state => { o with states := o.states ++ [state.name] }
  | .is true state => { o with notStates := o.notStates ++ [state.name] }
  | .verbatim on => { o with verbatim := some on }

/-- The operators among terms. -/
def ofTerms (terms : List Term) : Operators :=
  terms.foldl add {}

/-- The operators of two queries together, the second after the first. -/
def merge (a b : Operators) : Operators where
  kind := b.kind <|> a.kind
  space := b.space <|> a.space
  spaceId := b.spaceId <|> a.spaceId
  tags := a.tags ++ b.tags
  notTags := a.notTags ++ b.notTags
  states := a.states ++ b.states
  notStates := a.notStates ++ b.notStates
  hasNote := a.hasNote || b.hasNote
  notHasNote := a.notHasNote || b.notHasNote
  hasCitation := a.hasCitation || b.hasCitation
  notHasCitation := a.notHasCitation || b.notHasCitation
  verbatim := b.verbatim <|> a.verbatim

/-- Whether tags are asked for or excluded. -/
def usesTags (o : Operators) : Bool :=
  !o.tags.isEmpty || !o.notTags.isEmpty

/-- Whether states are asked for or excluded. -/
def usesStates (o : Operators) : Bool :=
  !o.states.isEmpty || !o.notStates.isEmpty

/-- Whether a note or a citation is asked for or excluded. -/
def usesHas (o : Operators) : Bool :=
  o.hasNote || o.notHasNote || o.hasCitation || o.notHasCitation

/-- Whether a space is asked for, by name or id. -/
def usesSpace (o : Operators) : Bool :=
  o.space.isSome || o.spaceId.isSome

end Operators

end Recall
