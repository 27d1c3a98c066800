/-
Recall.Json.Value — the values that stored data and settings are made of.

Integers are unbounded and distinct from floating-point numbers. An object is the list of its
members in order; reading keeps one member per key (`Json.put`), so `get?` finds the only one.

A text in a value is a string. In a value as JSON text denotes it (`Json.Raw`) it is a row of code
points; where no half of a surrogate pair is among them that is the value itself (`Json.whole?`).
-/
import Recall.Number.Binary64
import Recall.Text.Symbol

namespace Recall

/-- A value of stored data, with texts of a type. -/
inductive Json (τ : Type := String) where
  | null
  | bool (b : Bool)
  | int (n : Int)
  | float (x : Binary64)
  | str (s : τ)
  | arr (items : List (Json τ))
  | obj (members : List (τ × Json τ))

namespace Json

instance : Inhabited Json := ⟨.null⟩

/-- The first member with a key. -/
def lookup? (key : String) : List (String × Json) → Option Json
  | [] => none
  | (k, v) :: rest => if k = key then some v else lookup? key rest

/-- Sets a member: the value of the key's member is replaced where it stands, and a new key comes
last. -/
def put {κ α : Type} [DecidableEq κ] (members : List (κ × α)) (key : κ) (value : α) :
    List (κ × α) :=
  match members with
  | [] => [(key, value)]
  | (k, v) :: rest => if k = key then (k, value) :: rest else (k, v) :: put rest key value

/-- The member of an object with a key. -/
def get? (j : Json) (key : String) : Option Json :=
  match j with
  | .obj members => lookup? key members
  | _ => none

/-- The member of an object with a key; `null` stands for an absent one. -/
def field (members : List (String × Json)) (key : String) : Json :=
  (lookup? key members).getD .null

/-- The text of a string value. -/
def str? : Json → Option String
  | .str s => some s
  | _ => none

/-- Whether a value is `null`. -/
def isNull : Json → Bool
  | .null => true
  | _ => false

/-- Whether a value counts as set: `null`, `false`, zeros and empty texts, lists and objects do
not. -/
def isSet : Json → Bool
  | .null => false
  | .bool b => b
  | .int n => n != 0
  | .float x => !x.isZero
  | .str s => s != ""
  | .arr items => !items.isEmpty
  | .obj members => !members.isEmpty

/-- An optional text, `null` when there is none. -/
def ofText? : Option String → Json
  | some s => .str s
  | none => .null

/-! ## Values with code points for texts -/

/-- A value as JSON text denotes it. -/
abbrev Raw : Type := Json (List Symbol)

/-- The string of code points, if there are no halves among them. -/
def text? (s : List Symbol) : Option String :=
  (Symbol.chars? s).map String.ofList

mutual

/-- The value with strings for texts, if there are no halves in it. -/
def whole? : Raw → Option Json
  | .null => some .null
  | .bool b => some (.bool b)
  | .int n => some (.int n)
  | .float x => some (.float x)
  | .str s => (text? s).map .str
  | .arr js => (wholeItems? js).map .arr
  | .obj ms => (wholeMembers? ms).map .obj

/-- The same for items. -/
def wholeItems? : List Raw → Option (List Json)
  | [] => some []
  | j :: js => do return (← whole? j) :: (← wholeItems? js)

/-- The same for members. -/
def wholeMembers? : List (List Symbol × Raw) → Option (List (String × Json))
  | [] => some []
  | (k, v) :: ms => do return (← text? k, ← whole? v) :: (← wholeMembers? ms)

end

end Json

end Recall
