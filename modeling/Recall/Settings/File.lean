/-
Recall.Settings.File — settings in a file.

A settings file is the text of a value in some format. The settings stand in its section `search`, or
at its top when there is no such section. A file that is missing or has no content gives the defaults.

What the format is does not matter here: a `Codec` writes it and reads it. A file is opened as a text
file, so the lines that its reader gets end in a line feed.
-/
import Recall.FileTree.Basic
import Recall.Json.Encoding
import Recall.Settings.Basic

namespace Recall

namespace Settings

/-- A format of settings files. -/
structure Codec (ε : Type) where
  /-- The text of an object, if it has one. -/
  write? : List (String × Json) → Option (List Char)
  /-- The value of a text; a text without content has the value `null`. -/
  read : List Char → Except ε Json

/-- Why a settings file cannot be read. -/
inductive FileFault (ε : Type) where
  /-- A folder stands at the path. -/
  | isFolder
  /-- The file is not encoded in UTF-8. -/
  | notText
  /-- The file is not of its format. -/
  | format (e : ε)
  /-- The top of the file is no mapping. -/
  | noMapping (path : Path)
  /-- The section is no mapping. -/
  | noSection (path : Path)
  deriving DecidableEq, Repr

variable {ε : Type}

/-- The wording of a fault of the settings themselves. -/
def FileFault.message? : FileFault ε → Option String
  | .noMapping path => some ("Config must be a mapping: " ++ path.text)
  | .noSection path => some ("Config 'search' section must be a mapping: " ++ path.text)
  | _ => none

/-- The section of a settings file. -/
def section? (members : List (String × Json)) : Option (List (String × Json)) :=
  match Json.lookup? "search" members with
  | none => some members
  | some (.obj members) => some members
  | some _ => none

/-- The settings that the value of a file gives. -/
def ofValue (path : Path) : Json → Except (FileFault ε) Settings
  | .null => .ok {}
  | .obj members =>
    match section? members with
    | some members => .ok (ofMembers members)
    | none => .error (.noSection path)
  | _ => .error (.noMapping path)

/-- Lines with carriage returns end in a line feed like all others. -/
def plainBreaks : List Char → List Char
  | [] => []
  | '\r' :: '\n' :: r => '\n' :: plainBreaks r
  | c :: r => (if c = '\r' then '\n' else c) :: plainBreaks r

/-- The settings that the text of a file gives. -/
def ofChars (format : Codec ε) (path : Path) (cs : List Char) : Except (FileFault ε) Settings :=
  match format.read (plainBreaks cs) with
  | .ok j => ofValue path j
  | .error e => .error (.format e)

/-- The settings that a file gives, from the outcome of reading it. -/
def ofFile (format : Codec ε) (path : Path) (file : Except FileError (List UInt8)) :
    Except (FileFault ε) Settings :=
  match file with
  | .error .isFolder => .error .isFolder
  | .error _ => .ok {}
  | .ok bytes =>
    match Encoding.plainUtf8? bytes with
    | none => .error .notText
    | some cs => ofChars format path cs

/-- The settings at a path of a tree. -/
def load (format : Codec ε) (t : FileTree) (path : Path) : Except (FileFault ε) Settings :=
  ofFile format path (t.read path)

end Settings

end Recall
