/-
Recall.Settings.Save — saving settings, all or nothing.

The text goes to a new file beside the target first, which is then moved to the target's path. So
the target holds either what it held or the whole new text, wherever saving fails. If it does the new
file is removed. Folders that were made on the way stay.

Each step may fail for reasons of its own, such as a full disk; `Mishaps` says which do. Removing the
new file is such a step: if it fails the file stays, and this is the fault that is told.
-/
import Recall.Settings.File

namespace Recall

namespace Settings

/-- The steps of saving. -/
inductive SaveStep where
  /-- Making a folder on the way. -/
  | folder (p : Path)
  /-- Making the new file. -/
  | create
  /-- Writing the text to it. -/
  | write
  /-- Moving it to the path. -/
  | move
  /-- Removing it when it could not be moved. -/
  | remove
  deriving DecidableEq, Repr

/-- Why settings were not saved. -/
inductive SaveFault where
  | file (e : FileError)
  /-- The settings have no text in the format, such as a number with too many digits. -/
  | unwritable
  /-- A step failed for a reason of its own. -/
  | step (s : SaveStep)
  deriving DecidableEq, Repr

/-- What goes wrong for reasons that are not in the tree. -/
structure Mishaps where
  /-- The steps that fail. -/
  fails : SaveStep → Bool := fun _ => false
  /-- What is in the new file by the time writing to it stops. -/
  part : List UInt8 := []

variable {ε : Type}

/-- The text of a settings file. -/
def fileChars? (format : Codec ε) (members : List (String × Json)) : Option (List Char) :=
  format.write? [("search", .obj members)]

/-- The bytes of a text. -/
def bytesOf (cs : List Char) : List UInt8 :=
  cs.flatMap String.utf8EncodeChar

/-- The name of a new file, by its number. -/
def newName (n : Nat) : String :=
  String.ofList (".config_".toList ++ Chars.digits n ++ ".yaml.tmp".toList)

/-- A path beside a path at which nothing stands. -/
def newPath (t : FileTree) (path : Path) : Path :=
  let at? (n : Nat) : Path := path.parent.child (newName n)
  let free (n : Nat) : Bool := (t.find (at? n)).toOption.isNone
  at? (((List.range (t.entries.length + 1)).find? free).getD 0)

/-- The outcome of a step. -/
def step (m : Mishaps) (s : SaveStep) (e : Except FileError FileTree) : Except SaveFault FileTree :=
  if m.fails s then .error (.step s) else e.mapError .file

/-- Makes the folder of a path and the folders on the way. -/
def prepare (m : Mishaps) (t : FileTree) (path : Path) : FileTree × Except SaveFault Unit :=
  t.settleUp (fun t p => step m (.folder p) (t.makeFolder p)) (· == .file .missing)
    path.absolute path.parent.names.reverse

/-- The tree with the new file as far as it was written. -/
def stopped (m : Mishaps) (t : FileTree) (new : Path) : FileTree :=
  (t.write new m.part).toOption.getD t

/-- Writes members to the new file and moves it to its path. -/
def fill (format : Codec ε) (m : Mishaps) (t : FileTree) (new path : Path)
    (members : List (String × Json)) : FileTree × Except SaveFault Unit :=
  match fileChars? format members with
  | none => (stopped m t new, .error .unwritable)
  | some cs =>
    match step m .write (t.write new (bytesOf cs)) with
    | .error e => (stopped m t new, .error e)
    | .ok t =>
      match step m .move (t.move new path) with
      | .error e => (t, .error e)
      | .ok t => (t, .ok ())

/-- Removes the new file after a fault, if it is there. -/
def discard (m : Mishaps) (t : FileTree) (new : Path) (e : SaveFault) : FileTree × SaveFault :=
  match t.find new with
  | .error _ => (t, e)
  | .ok _ => if m.fails .remove then (t, .step .remove) else (t.remove new, e)

/-- Saves members at a path: the tree afterwards, and the fault if they were not saved. -/
def save (format : Codec ε) (m : Mishaps) (t : FileTree) (path : Path)
    (members : List (String × Json)) : FileTree × Except SaveFault Unit :=
  match prepare m t path with
  | (t, .error e) => (t, .error e)
  | (t, .ok ()) =>
    let new := newPath t path
    match step m .create (t.write new []) with
    | .error e => (t, .error e)
    | .ok made =>
      match fill format m made new path members with
      | (t, .error e) =>
        let (t, e) := discard m t new e
        (t, .error e)
      | (t, .ok ()) => (t, .ok ())

end Settings

end Recall
