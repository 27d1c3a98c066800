/-
Recall.Yaml.Value — the value of a YAML text.

Sequences become lists and mappings become objects; members whose key is no text cannot be asked
for and are left out. A merge key takes over the members of another mapping, or of several, and the
mapping's own members count before them; of equal keys the last counts. Sets and ordered maps
become lists. Collections cannot be keys.

A value is there only if every node of the tree has one. Nodes are checked level by level: a fault
near the root is found before one below it, and of faults on one level the first.
-/
import Recall.Yaml.Node

namespace Recall

namespace Yaml

namespace Node

/-! ## 1. Merge keys -/

/-- Whether a node is a merge key. -/
def isMerge : Node → Bool
  | .scalar tag _ => tag == Tag.merge
  | _ => false

/-- The members of a mapping. -/
def members? : Node → Option (List (Node × Node))
  | .mapping _ members => some members
  | _ => none

/-- The members that a merge key's value gives: those of a mapping, or of a sequence of mappings,
of which the first counts most. -/
def mergedFrom? : Node → Option (List (Node × Node))
  | .mapping _ members => some members
  | .sequence _ items => (items.reverse.mapM members?).map List.flatten
  | .scalar _ _ => none

/-- The members of a mapping with its merge keys resolved: what is taken over, then its own. A
merge key that gives nothing stays. -/
def resolve (members : List (Node × Node)) : List (Node × Node) :=
  let taken := members.flatMap fun (k, v) =>
    if isMerge k then (mergedFrom? v).getD [(k, v)] else []
  taken ++ members.filter fun (k, _) => !isMerge k

mutual

/-- A node with all merge keys resolved. -/
def merged : Node → Node
  | .scalar tag text => .scalar tag text
  | .sequence tag items => .sequence tag (mergedItems items)
  | .mapping tag members => .mapping tag (resolve (mergedMembers members))

/-- Items with all merge keys resolved. -/
def mergedItems : List Node → List Node
  | [] => []
  | n :: r => merged n :: mergedItems r

/-- Members with all merge keys inside them resolved. -/
def mergedMembers : List (Node × Node) → List (Node × Node)
  | [] => []
  | (k, v) :: r => (merged k, merged v) :: mergedMembers r

end

/-! ## 2. Checking -/

/-- The tag of a node. -/
def tag : Node → String
  | .scalar t _ => t
  | .sequence t _ => t
  | .mapping t _ => t

/-- Tags of collections. -/
def isCollectionTag (t : String) : Bool :=
  [Tag.seq, Tag.map, Tag.set, Tag.omap, Tag.pairs].contains t

mutual

/-- The text of a node that is to be a scalar: of a mapping, the text of its default value. -/
def scalarText? : Node → Option String
  | .scalar _ text => some text
  | .sequence _ _ => none
  | .mapping _ members => defaultText? members

/-- The text of the value of the default key among members. -/
def defaultText? : List (Node × Node) → Option String
  | [] => none
  | (k, v) :: r => if k.tag == Tag.default then scalarText? v else defaultText? r

end

/-- The value of a node that is to be a scalar. -/
def scalarOf (n : Node) : Except Error Json :=
  match scalarText? n with
  | some text => scalarValue n.tag text
  | none => .error .malformed

/-- Checks a node by itself. Collections are looked into later. -/
def checkSelf (n : Node) : Except Error Unit :=
  if isCollectionTag n.tag then .ok () else do let _ ← scalarOf n

/-- Checks a key, which is no collection. The default key is a text there. -/
def checkKey (k : Node) : Except Error Unit :=
  if k.tag = Tag.default then .ok ()
  else if isCollectionTag k.tag then .error .malformed
  else checkSelf k

/-- Checks the keys and values of members by themselves. -/
def checkMembers : List (Node × Node) → Except Error Unit
  | [] => .ok ()
  | (k, v) :: r => do
    checkKey k
    checkSelf v
    checkMembers r

/-- The only member of a mapping. -/
def onlyMember? : Node → Option (Node × Node)
  | .mapping _ [m] => some m
  | _ => none

/-- Checks the items of a collection by themselves, and gives those that are to be looked into. -/
def inside (n : Node) : Except Error (List Node) :=
  if n.tag = Tag.seq then
    match n with
    | .sequence _ items => do
      items.forM checkSelf
      return items
    | _ => .error .malformed
  else if n.tag = Tag.map ∨ n.tag = Tag.set then
    match n with
    | .mapping _ members => do
      checkMembers members
      return members.map Prod.snd
    | _ => .error .malformed
  else if n.tag = Tag.omap ∨ n.tag = Tag.pairs then
    match n with
    | .sequence _ items => do
      match items.mapM onlyMember? with
      | some members => do
        members.forM fun (k, v) => do
          checkSelf k
          checkSelf v
        return members.flatMap fun (k, v) => [k, v]
      | none => .error .malformed
    | _ => .error .malformed
  else .ok []

/-- The nodes of the next level. -/
def nextLevel : List Node → Except Error (List Node)
  | [] => .ok []
  | n :: r => do
    let here ← inside n
    let rest ← nextLevel r
    return here ++ rest

mutual

/-- The number of levels of a tree. -/
def height : Node → Nat
  | .scalar _ _ => 1
  | .sequence _ items => heightItems items + 1
  | .mapping _ members => heightMembers members + 1

/-- The greatest number of levels among items. -/
def heightItems : List Node → Nat
  | [] => 0
  | n :: r => max (height n) (heightItems r)

/-- The greatest number of levels among keys and values. -/
def heightMembers : List (Node × Node) → Nat
  | [] => 0
  | (k, v) :: r => max (max (height k) (height v)) (heightMembers r)

end

/-- Checks nodes and all below them, `levels` deep. -/
def checkLevels : Nat → List Node → Except Error Unit
  | 0, _ => .ok ()
  | levels + 1, ns =>
    if ns.isEmpty then .ok () else do checkLevels levels (← nextLevel ns)

/-- Checks a tree of nodes. -/
def check (n : Node) : Except Error Unit := do
  checkSelf n
  checkLevels n.height [n]

/-! ## 3. Values -/

/-- The text of a key, if it is one. -/
def keyText? : Node → Option String
  | .scalar tag text => if tag = Tag.str ∨ tag = Tag.default then some text else none
  | n => if n.tag = Tag.str then scalarText? n else none

/-- An object of members; of equal keys the last counts. -/
def object (members : List (Node × Json)) : Json :=
  .obj (members.foldl (fun done (k, v) =>
    match keyText? k with
    | some key => Json.put done key v
    | none => done) [])

mutual

/-- The value of a node that has been checked. -/
def json : Node → Json
  | .scalar tag text =>
    match scalarValue tag text with
    | .ok j => j
    | .error _ => .null
  | .sequence _ items => .arr (jsonItems items)
  | .mapping tag members =>
    if tag = Tag.map then object (jsonMembers members)
    else if tag = Tag.set then .arr (jsonKeys members)
    else
      match defaultText? members with
      | some text =>
        match scalarValue tag text with
        | .ok j => j
        | .error _ => .null
      | none => .null

/-- The values of items. -/
def jsonItems : List Node → List Json
  | [] => []
  | n :: r => json n :: jsonItems r

/-- The values of members with their keys. -/
def jsonMembers : List (Node × Node) → List (Node × Json)
  | [] => []
  | (k, v) :: r => (k, json v) :: jsonMembers r

/-- The values of keys. -/
def jsonKeys : List (Node × Node) → List Json
  | [] => []
  | (k, _) :: r => json k :: jsonKeys r

end

/-- The value of a node. -/
def value (n : Node) : Except Error Json := do
  check n.merged
  return n.merged.json

end Node

/-! ## 4. Texts -/

/-- The value of a YAML text of one document whose collections are nested at most `depth` deep; a text
without content has the value `null`. -/
def read (depth : Nat) (cs : List Char) : Except Error Json :=
  if !cs.all isPrintable then .error .malformed
  else do
    match ← Node.ofTokens depth (tokens cs) with
    | none => return .null
    | some n => n.value

end Yaml

end Recall
