/-
Recall.Yaml.Node — the nodes of a YAML document.

A document is a tree of scalars, sequences and mappings, each with the tag that says what it stands
for. An alias stands for the node that was anchored under its name before; inside the collection
that bears the anchor it stands for an empty one.

Reading is by the kind of the next token. `node` recurses on the number of collections that may
still be nested, and the items of a collection on the number of tokens, as in `Recall.Json.Reader`.
A missing item is an empty plain scalar, which stands for null.
-/
import Recall.Yaml.Schema
import Recall.Yaml.Token

namespace Recall

namespace Yaml

/-- A node with its tag. -/
inductive Node where
  | scalar (tag text : String)
  | sequence (tag : String) (items : List Node)
  | mapping (tag : String) (members : List (Node × Node))

namespace Node

/-- What stands where an item is missing. -/
def missing : Node := .scalar Tag.null ""

/-! ## 1. Readers -/

/-- What is left of the tokens, and the nodes that were anchored. -/
structure Rest where
  tokens : List Token
  anchors : List (String × Node) := []

/-- Reads something off the front of the tokens. -/
abbrev Reader (α : Type) := Rest → Except Error (α × Rest)

/-- The error of tokens that cannot go on as they do. -/
def unexpected {α : Type} (s : Rest) : Except Error α :=
  match s.tokens with
  | .failure e :: _ => .error e
  | _ => .error .malformed

/-- Whether one of some tokens comes next. -/
def startsWith (set : List Token) (s : Rest) : Bool :=
  match s.tokens with
  | [] => false
  | t :: _ => set.contains t

/-- Passes one token. -/
def drop (s : Rest) : Rest :=
  { s with tokens := s.tokens.drop 1 }

/-- An item, missing when one of some tokens comes next. -/
def itemUnless (set : List Token) (item : Reader Node) : Reader Node := fun s =>
  if startsWith set s then .ok (missing, s) else item s

/-- What stands behind a token if it comes next. -/
def behind (t : Token) (item : Reader Node) : Reader Node := fun s =>
  if startsWith [t] s then item (drop s) else .ok (missing, s)

/-! ## 2. Block collections -/

/-- The entries of a block sequence up to the end of its block. -/
def blockItems (item : Reader Node) : Nat → Reader (List Node)
  | 0, s => unexpected s
  | fuel + 1, s =>
    if startsWith [.blockEntry] s then do
      let (a, s) ← itemUnless [.blockEntry, .blockEnd] item (drop s)
      let (rest, s) ← blockItems item fuel s
      return (a :: rest, s)
    else if startsWith [.blockEnd] s then .ok ([], drop s)
    else unexpected s

/-- The entries of a sequence that is not indented below its key, as far as they go. -/
def flatItems (item : Reader Node) : Nat → Reader (List Node)
  | 0, s => unexpected s
  | fuel + 1, s =>
    if startsWith [.blockEntry] s then do
      let (a, s) ← itemUnless [.blockEntry, .key, .value, .blockEnd] item (drop s)
      let (rest, s) ← flatItems item fuel s
      return (a :: rest, s)
    else .ok ([], s)

/-- The members of a block mapping up to the end of its block. -/
def blockMembers (item : Reader Node) : Nat → Reader (List (Node × Node))
  | 0, s => unexpected s
  | fuel + 1, s =>
    if startsWith [.key] s then do
      let ends : List Token := [.key, .value, .blockEnd]
      let (k, s) ← itemUnless ends item (drop s)
      let (v, s) ← behind .value (itemUnless ends item) s
      let (rest, s) ← blockMembers item fuel s
      return ((k, v) :: rest, s)
    else if startsWith [.blockEnd] s then .ok ([], drop s)
    else unexpected s

/-! ## 3. Flow collections -/

/-- The items of a flow collection up to its end, with commas between them and perhaps one behind
the last. -/
def flowItems {α : Type} (close : Token) (item : Reader α) : Nat → Reader (List α)
  | 0, s => unexpected s
  | fuel + 1, s =>
    if startsWith [close] s then .ok ([], drop s)
    else do
      let (a, s) ← item s
      if startsWith [.flowEntry] s then
        let (rest, s) ← flowItems close item fuel (drop s)
        return (a :: rest, s)
      else if startsWith [close] s then return ([a], drop s)
      else unexpected s

/-- The value of a key in a flow collection. -/
def flowValue (close : Token) (item : Reader Node) : Reader Node :=
  behind .value (itemUnless [.flowEntry, close] item)

/-- The key of a member in a flow collection, whose token has been read, and its value. -/
def flowPair (close : Token) (item : Reader Node) : Reader (Node × Node) := fun s => do
  let (k, s) ← itemUnless [.value, .flowEntry, close] item s
  let (v, s) ← flowValue close item s
  return ((k, v), s)

/-- An item of a flow sequence; a pair there is a mapping of one member. -/
def flowItem (item : Reader Node) : Reader Node := fun s =>
  if startsWith [.key] s then do
    let (m, s) ← flowPair .flowSequenceEnd item (drop s)
    return (.mapping Tag.map [m], s)
  else item s

/-- A member of a flow mapping; a key alone has no value. -/
def flowMember (item : Reader Node) : Reader (Node × Node) := fun s =>
  if startsWith [.key] s then flowPair .flowMappingEnd item (drop s)
  else do
    let (k, s) ← item s
    return ((k, missing), s)

/-! ## 4. Properties -/

/-- The anchor and the tag of a node. -/
structure Properties where
  anchor : Option String := none
  tag : Option RawTag := none

/-- The properties in front of a node, in either order. -/
def properties (ts : List Token) : Properties × List Token :=
  match ts with
  | .anchor a :: .tag t :: r => (⟨some a, some t⟩, r)
  | .tag t :: .anchor a :: r => (⟨some a, some t⟩, r)
  | .anchor a :: r => (⟨some a, none⟩, r)
  | .tag t :: r => (⟨none, some t⟩, r)
  | r => ({}, r)

/-- The meaning of a key in a list of pairs. -/
def meaning? {α : Type} (key : String) : List (String × α) → Option α
  | [] => none
  | (k, v) :: rest => if k = key then some v else meaning? key rest

/-- A tag in full; the lone exclamation mark leaves the tag to the node's form. -/
def fullTag (handles : List (String × String)) (t : Option RawTag) :
    Except Error (Option String) :=
  match t with
  | none => .ok none
  | some ⟨none, suffix⟩ => .ok (if suffix = "!" then none else some suffix)
  | some ⟨some handle, suffix⟩ =>
    match meaning? handle handles with
    | some m => .ok (if m ++ suffix = "!" then none else some (m ++ suffix))
    | none => .error .malformed

/-- Keeps a node under its anchor. -/
def keep (anchor : Option String) (n : Node) (s : Rest) : Rest :=
  match anchor with
  | some a => { s with anchors := (a, n) :: s.anchors }
  | none => s

/-! ## 5. Nodes -/

/-- Where a node stands, which decides what it may be. -/
inductive Place where
  /-- In a flow collection. -/
  | flow
  /-- In a block. -/
  | block
  /-- Behind a key or a colon in a block, where a sequence need not be indented. -/
  | member
  deriving DecidableEq, Repr

/-- A collection whose opening token has been read: its items, then the node made of them. -/
def collection {α : Type} (anchor : Option String) (make : List α → Node)
    (items : Reader (List α)) : Reader Node := fun s => do
  let (as, s) ← items (keep anchor (make []) s)
  let n := make as
  return (n, keep anchor n s)

/-- A node that may hold collections nested `depth` deep. -/
def node (handles : List (String × String)) : Nat → Place → Reader Node
  | depth, place, s =>
    match s.tokens with
    | .alias a :: r =>
      match meaning? a s.anchors with
      | some n => .ok (n, { s with tokens := r })
      | none => .error .malformed
    | tokens => do
      let (props, tokens) := properties tokens
      let tag ← fullTag handles props.tag
      if props.anchor.any fun a => (meaning? a s.anchors).isSome then .error .malformed
      else
        let s := { s with tokens := tokens }
        let fuel := tokens.length + 1
        let seq := fun items => Node.sequence (tag.getD Tag.seq) items
        let map := fun members => Node.mapping (tag.getD Tag.map) members
        match depth, tokens with
        | _, .scalar plain text :: _ =>
          let implied := if plain || props.tag.isSome then plainTag text else Tag.str
          let n := Node.scalar (tag.getD implied) text
          .ok (n, keep props.anchor n (drop s))
        | d + 1, .flowSequenceStart :: _ =>
          collection props.anchor seq
            (flowItems .flowSequenceEnd (flowItem (node handles d .flow)) fuel) (drop s)
        | d + 1, .flowMappingStart :: _ =>
          collection props.anchor map
            (flowItems .flowMappingEnd (flowMember (node handles d .flow)) fuel) (drop s)
        | 0, .flowSequenceStart :: _ => .error .tooDeep
        | 0, .flowMappingStart :: _ => .error .tooDeep
        | depth, tokens =>
          if place = .member && tokens.head? == some .blockEntry then
            match depth with
            | 0 => .error .tooDeep
            | d + 1 =>
              collection props.anchor seq (flatItems (node handles d .block) fuel) s
          else if place != .flow && tokens.head? == some .blockSequenceStart then
            match depth with
            | 0 => .error .tooDeep
            | d + 1 =>
              collection props.anchor seq (blockItems (node handles d .block) fuel) (drop s)
          else if place != .flow && tokens.head? == some .blockMappingStart then
            match depth with
            | 0 => .error .tooDeep
            | d + 1 =>
              collection props.anchor map (blockMembers (node handles d .member) fuel) (drop s)
          else if props.anchor.isSome || props.tag.isSome then
            let n := Node.scalar (tag.getD Tag.null) ""
            .ok (n, keep props.anchor n s)
          else unexpected s

/-! ## 6. Documents -/

/-- The handles that every document has. -/
def commonHandles : List (String × String) := [("!", "!"), ("!!", Tag.core)]

/-- The directives in front of a document: whether a version was given, and the handles. -/
def directives : Bool → List (String × String) → List Token →
    Except Error (List (String × String) × List Token)
  | versioned, handles, .directive (.version major) :: r =>
    if versioned || major != 1 then .error .malformed else directives true handles r
  | versioned, handles, .directive (.shorthand h m) :: r =>
    if (meaning? h handles).isSome then .error .malformed
    else directives versioned ((h, m) :: handles) r
  | versioned, handles, .directive .other :: r => directives versioned handles r
  | _, handles, ts => .ok (handles ++ commonHandles, ts)

/-- Whether a document is over before it has begun. -/
def isBare : List Token → Bool
  | .directive _ :: _ => true
  | .documentStart :: _ => true
  | .documentEnd :: _ => true
  | .textEnd :: _ => true
  | _ => false

/-- Nothing may follow the only document but marks of its end. -/
def finish (n : Node) : List Token → Except Error Node
  | .documentEnd :: r => finish n r
  | .textEnd :: _ => .ok n
  | ts => unexpected { tokens := ts }

/-- The only document of a text, with collections nested at most `depth` deep; none in a text without
content. -/
def ofTokens (depth : Nat) (ts : List Token) : Except Error (Option Node) :=
  match ts with
  | .textEnd :: _ => .ok none
  | ts => do
    let bare := match ts with
      | .directive _ :: _ => true
      | .documentStart :: _ => true
      | _ => false
    if bare then
      let (handles, ts) ← directives false [] ts
      match ts with
      | .documentStart :: r =>
        if isBare r then return some (← finish missing r)
        else
          let (n, s) ← node handles depth .block { tokens := r }
          return some (← finish n s.tokens)
      | ts => unexpected { tokens := ts }
    else
      let (n, s) ← node commonHandles depth .block { tokens := ts }
      return some (← finish n s.tokens)

end Node

end Yaml

end Recall
