/-
Recall.FileTree.Path — paths of files.

A path is a sequence of names, one for each folder on the way and the last for the file. Slashes
separate names in its text; empty names and single dots mean nothing there, so texts that differ
only in them are the same path.
-/
import Recall.Text.Chars

namespace Recall

/-- A path, from the root when `absolute` and else from the folder that is current. -/
structure Path where
  absolute : Bool := false
  names : List String
  deriving DecidableEq, Repr

namespace Path

/-- The path of a text. -/
def ofText (s : String) : Path where
  absolute := s.toList.head? == some '/'
  names := ((Chars.fields (· == '/') s.toList).map String.ofList).filter (· != ".")

/-- The text of a path; a dot stands for no names. -/
def text (p : Path) : String :=
  let names := Text.join "/" p.names
  if p.absolute then "/" ++ names else if p.names.isEmpty then "." else names

/-- The folder of a path's file. -/
def parent (p : Path) : Path :=
  { p with names := p.names.dropLast }

/-- The path of a name in a folder. -/
def child (p : Path) (name : String) : Path :=
  { p with names := p.names ++ [name] }

end Path

end Recall
