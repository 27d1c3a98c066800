/-
Recall.Yaml.Tag — anchors, tags and directives.

An anchor names a node and a tag says what it stands for. A tag is written in full between angle
brackets, or as a handle with a suffix; a directive at the head of a document gives the handles
their meaning. Each reader here starts behind the indicator.
-/
import Recall.Json.Encoding
import Recall.Yaml.Text

namespace Recall

namespace Yaml

/-! ## 1. Names -/

/-- A name in front, which must not be empty, and the rest. -/
def name (cs : List Char) : Except Error (List Char × List Char) :=
  match cs.takeWhile isNameChar with
  | [] => .error .malformed
  | n => .ok (n, cs.dropWhile isNameChar)

/-- The name of an anchor or an alias, and what may follow it. -/
def anchorName (cs : List Char) : Except Error (String × List Char) := do
  let (n, r) ← name cs
  if startsGap r || startsWith ['?', ':', ',', ']', '}', '%', '@', '\x60'] r then
    return (String.ofList n, r)
  else .error .malformed

/-! ## 2. Tags -/

/-- A tag as written: a handle, missing in the full form, and the rest. -/
structure RawTag where
  handle : Option String
  suffix : String
  deriving DecidableEq, Repr

/-- Characters of a tag's suffix, apart from escapes. -/
def isTagChar (c : Char) : Bool :=
  isNameChar c ||
    [';', '/', '?', ':', '@', '&', '=', '+', '$', ',', '.', '!', '~', '*', '\'', '(', ')', '[',
      ']'].contains c

/-- A run of escaped octets, as far as it goes. -/
def tagOctets : List Char → Except Error (List UInt8 × List Char)
  | '%' :: a :: b :: r =>
    match Chars.hexValue? a, Chars.hexValue? b with
    | some x, some y => do
      let (os, rest) ← tagOctets r
      return ((16 * x + y).toUInt8 :: os, rest)
    | _, _ => .error .malformed
  | '%' :: _ => .error .malformed
  | r => .ok ([], r)

/-- Characters and escapes of a tag's suffix. `fuel` bounds the pieces. -/
def tagTextFrom : Nat → List Char → Except Error (List Char × List Char)
  | 0, _ => .error .malformed
  | fuel + 1, cs =>
    if startsWith ['%'] cs then do
      let (octets, r) ← tagOctets cs
      match Encoding.plainUtf8? octets with
      | none => .error .malformed
      | some piece => do
        let (text, rest) ← tagTextFrom fuel r
        return (piece ++ text, rest)
    else if (cs.takeWhile isTagChar).isEmpty then .ok ([], cs)
    else do
      let (text, rest) ← tagTextFrom fuel (cs.dropWhile isTagChar)
      return (cs.takeWhile isTagChar ++ text, rest)

/-- The suffix of a tag, which must not be empty. -/
def tagText (cs : List Char) : Except Error (String × List Char) := do
  let (text, r) ← tagTextFrom (cs.length + 1) cs
  if r.length = cs.length then .error .malformed else return (String.ofList text, r)

/-- The handle of a tag: an exclamation mark, or a name between two. -/
def tagHandle : List Char → Except Error (String × List Char)
  | '!' :: ' ' :: r => .ok ("!", ' ' :: r)
  | '!' :: r =>
    match r.dropWhile isNameChar with
    | '!' :: rest => .ok (String.ofList ('!' :: r.takeWhile isNameChar ++ ['!']), rest)
    | _ => .error .malformed
  | _ => .error .malformed

/-- A tag, from its exclamation mark on. A second mark before the next space closes a handle. -/
def tag (cs : List Char) : Except Error (RawTag × List Char) := do
  let (t, r) ← match cs.drop 1 with
    | '<' :: r => do
      let (text, r) ← tagText r
      match r with
      | '>' :: r => .ok ((⟨none, text⟩ : RawTag), r)
      | _ => .error .malformed
    | r =>
      if startsGap r then .ok (⟨none, "!"⟩, r)
      else if (r.takeWhile fun c => !(c == ' ' || isBreak c)).contains '!' then do
        let (handle, r) ← tagHandle cs
        let (text, r) ← tagText r
        .ok (⟨some handle, text⟩, r)
      else do
        let (text, r) ← tagText r
        .ok (⟨some "!", text⟩, r)
  if startsSpace r then return (t, r) else .error .malformed

/-! ## 3. Directives -/

/-- What a directive says. -/
inductive Directive where
  /-- The version of the format, by its first number. -/
  | version (major : Nat)
  /-- The meaning of a tag handle. -/
  | shorthand (handle meaning : String)
  /-- Anything else, which is ignored. -/
  | other
  deriving DecidableEq, Repr

/-- The digits of a version number, which has at least one, and the rest. -/
def versionNumber (cs : List Char) : Except Error (Nat × List Char) :=
  match cs.takeWhile Chars.isAsciiDigit with
  | [] => .error .malformed
  | ds =>
    if Chars.maxDigits < ds.length then .error .badNumber
    else .ok (Chars.ofDigits (ds.map fun c => c.toNat - '0'.toNat),
      cs.dropWhile Chars.isAsciiDigit)

/-- The two numbers of a version, of which the first counts. -/
def version (cs : List Char) : Except Error (Directive × List Char) := do
  let (major, r) ← versionNumber (cs.dropWhile (· == ' '))
  match r with
  | '.' :: r => do
    let (_, r) ← versionNumber r
    if startsSpace r then return (.version major, r) else .error .malformed
  | _ => .error .malformed

/-- A handle and its meaning. -/
def shorthand (cs : List Char) : Except Error (Directive × List Char) := do
  let (handle, r) ← tagHandle (cs.dropWhile (· == ' '))
  match r with
  | ' ' :: r => do
    let (meaning, r) ← tagText (r.dropWhile (· == ' '))
    if startsSpace r then return (.shorthand handle meaning, r) else .error .malformed
  | _ => .error .malformed

/-- A directive behind its percent sign, with its line. -/
def directive (cs : List Char) : Except Error (Directive × List Char) := do
  let (n, r) ← name cs
  if !startsSpace r then .error .malformed
  else
    let (d, r) ←
      if n = ['Y', 'A', 'M', 'L'] then version r
      else if n = ['T', 'A', 'G'] then shorthand r
      else .ok (.other, (line r).2)
    return (d, ← restOfLine r)

end Yaml

end Recall
