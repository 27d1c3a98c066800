/-
Recall.Storage.Load — stored texts and bytes as values.

What is stored may be the JSON text of a value, as a string or as bytes. Text that is missing or
corrupt gives a fallback; only nesting that is too deep and integers that are too long are errors. How
deep values may be nested depends on how much of the stack is left, so the caller says it; what is
done besides reading is taken to fit.
-/
import Recall.Json.Encoding

namespace Recall

namespace Storage

/-- The value of a JSON text with `depth` levels for it, or a fallback for a text that is empty or
corrupt. -/
def loadText (depth : Nat) (text : List Symbol) (fallback : Json.Raw) :
    Except Json.Limit Json.Raw :=
  if text.isEmpty then .ok fallback
  else
    match Json.read depth text with
    | .ok j => .ok j
    | .error e =>
      match e.limit? with
      | none => .ok fallback
      | some l => .error l

/-- The value of the JSON text in bytes, or a fallback for bytes that are empty or corrupt. -/
def loadBytes (depth : Nat) (bs : List UInt8) (fallback : Json.Raw) :
    Except Json.Limit Json.Raw :=
  match Encoding.decode? bs with
  | none => .ok fallback
  | some text => loadText depth text fallback

end Storage

end Recall
