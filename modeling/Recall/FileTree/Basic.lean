/-
Recall.FileTree.Basic — a tree of folders and files.

The tree is kept as the list of its paths below the root folder, each with what stands there. Only
folders hold anything: a path can be made where its folder is, and nowhere else. Operations say why
they fail and change nothing then; where several folders are made, those before the failure stay.
-/
import Recall.FileTree.Path

namespace Recall

/-- What stands at a path. -/
inductive Item where
  | folder
  | file (bytes : List UInt8)
  deriving DecidableEq, Repr

/-- Why a file operation fails. -/
inductive FileError where
  /-- Nothing stands at the path, or at the path of a folder on the way. -/
  | missing
  /-- A file stands where a folder on the way should be. -/
  | notFolder
  /-- A folder stands where a file should be. -/
  | isFolder
  /-- Something stands where a folder is to be made. -/
  | occupied
  deriving DecidableEq, Repr

/-- A tree of folders and files. -/
structure FileTree where
  entries : List (List String × Item) := []
  deriving DecidableEq, Repr

namespace FileTree

/-! ## 1. Looking -/

/-- What stands at names from the root, which is a folder. -/
def get? (t : FileTree) (names : List String) : Option Item :=
  if names.isEmpty then some .folder
  else (t.entries.find? fun e => e.1 == names).map Prod.snd

/-- Follows names from a folder; two dots lead to the folder above. Every name but the last must be
that of a folder. -/
def locateFrom (t : FileTree) (done : List String) : List String → Except FileError (List String)
  | [] => .ok done
  | n :: rest =>
    match t.get? done with
    | some .folder => locateFrom t (if n = ".." then done.dropLast else done ++ [n]) rest
    | some (.file _) => .error .notFolder
    | none => .error .missing

/-- The names from the root to which a path leads; nothing need stand there. The tree holds no
absolute paths. -/
def locate (t : FileTree) (p : Path) : Except FileError (List String) :=
  if p.absolute then .error .missing else t.locateFrom [] p.names

/-- What stands at a path. -/
def find (t : FileTree) (p : Path) : Except FileError Item := do
  match t.get? (← t.locate p) with
  | some item => return item
  | none => .error .missing

/-- The bytes of the file at a path. -/
def read (t : FileTree) (p : Path) : Except FileError (List UInt8) := do
  match ← t.find p with
  | .file bytes => return bytes
  | .folder => .error .isFolder

/-- Whether a folder stands at a path. -/
def isFolder (t : FileTree) (p : Path) : Bool :=
  match t.find p with
  | .ok .folder => true
  | _ => false

/-- The texts of all paths, in order. -/
def list (t : FileTree) : List String :=
  (t.entries.map fun e => Text.join "/" e.1).mergeSort fun a b => Chars.le a.toList b.toList

/-! ## 2. Changing -/

/-- The tree without what stands at names. -/
def erase (t : FileTree) (names : List String) : FileTree :=
  ⟨t.entries.filter fun e => e.1 != names⟩

/-- The tree with something at names, whatever stood there. -/
def put (t : FileTree) (names : List String) (item : Item) : FileTree :=
  ⟨(t.erase names).entries ++ [(names, item)]⟩

/-- Makes a folder where nothing stands. -/
def makeFolder (t : FileTree) (p : Path) : Except FileError FileTree := do
  let names ← t.locate p
  match t.get? names with
  | some _ => .error .occupied
  | none => return t.put names .folder

/-- Makes a folder by `make`. One that is there is fine. -/
def settle {ε : Type} (make : FileTree → Path → Except ε FileTree) (t : FileTree) (p : Path) :
    FileTree × Except ε Unit :=
  match make t p with
  | .ok t => (t, .ok ())
  | .error e => (t, if t.isFolder p then .ok () else .error e)

/-- Makes a folder by `make`, and first the folders on the way if it misses one; names come last
first. Folders that were made stay when one behind them cannot be made. -/
def settleUp {ε : Type} (make : FileTree → Path → Except ε FileTree) (misses : ε → Bool)
    (t : FileTree) (absolute : Bool) : List String → FileTree × Except ε Unit
  | [] => (t, .ok ())
  | n :: up =>
    let p : Path := ⟨absolute, (n :: up).reverse⟩
    match make t p with
    | .ok t => (t, .ok ())
    | .error e =>
      if misses e then
        match settleUp make misses t absolute up with
        | (t, .ok ()) => t.settle make p
        | (t, .error e) => (t, .error e)
      else t.settle make p

/-- Makes a folder and the folders on the way, as far as they are missing. -/
def makeFolders (t : FileTree) (p : Path) : Except FileError FileTree :=
  match t.settleUp makeFolder (· == .missing) p.absolute p.names.reverse with
  | (t, .ok ()) => .ok t
  | (_, .error e) => .error e

/-- Writes a file, in place of one that is there. -/
def write (t : FileTree) (p : Path) (bytes : List UInt8) : Except FileError FileTree := do
  let names ← t.locate p
  match t.get? names with
  | some .folder => .error .isFolder
  | _ => return t.put names (.file bytes)

/-- Moves a file to a path, in place of a file that is there. -/
def move (t : FileTree) (source target : Path) : Except FileError FileTree := do
  let bytes ← t.read source
  let old ← t.locate source
  let new ← t.locate target
  match t.get? new with
  | some .folder => .error .isFolder
  | _ => return (t.erase old).put new (.file bytes)

/-- Removes what stands at a path. -/
def remove (t : FileTree) (p : Path) : FileTree :=
  match t.locate p with
  | .ok names => t.erase names
  | .error _ => t

end FileTree

end Recall
