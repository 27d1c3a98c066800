/-
Recall.Main — the command line.

Everything that is decided is decided by `Recall.Command.run`. Here its inputs are fetched, the
files among them before it runs, and its outcome is printed.
-/
import Recall.Command.Run

open Recall

/-- The outcome of reading the file at a path. -/
def readPath (p : Path) : IO (Except FileError (List UInt8)) := do
  try
    return .ok (← IO.FS.readBinFile p.text).toList
  catch e =>
    match e with
    | .noFileOrDirectory .. => return .error .missing
    | .noSuchThing .. => return .error .missing
    | .inappropriateType .. => return .error .isFolder
    | _ => return .error .notFolder

/-- The present in milliseconds, as the file system dates a new file. -/
def readClock : IO Int := do
  let (_, file) ← IO.FS.createTempFile
  let t := (← file.metadata).modified
  IO.FS.removeFile file
  return t.sec * 1000 + (t.nsec.toNat / 1000000 : Nat)

/-- The environment variables that are set, of those that are looked at. -/
def readVariables : List String → IO (List (String × String))
  | [] => return []
  | name :: rest => do
    let more ← readVariables rest
    match ← IO.getEnv name with
    | some value => return (name, value) :: more
    | none => return more

/-- The outcomes of reading the paths that a command line asks for. -/
def readFiles (config : Path) (argv : List String) :
    IO (List (Path × Except FileError (List UInt8))) := do
  match Invocation.ofArguments argv with
  | .ok (.search a) =>
    let settings := a.config.getD config
    return [(settings, ← readPath settings), (a.data, ← readPath a.data)]
  | _ => return []

/-- Prints how a command ends, and gives its code. -/
def printOutcome (o : Command.Outcome) : IO UInt32 := do
  match o with
  | .printed text => IO.print text
  | .complained c => IO.eprint ("Error: " ++ c.text ++ "\n")
  | .usage => IO.print Command.usageText
  | .refused .help => IO.print Command.usageText
  | .refused .wrong => IO.eprint Command.usageText
  return o.code.toUInt32

/-- Runs the command line. -/
def main (argv : List String) : IO UInt32 := do
  let home := (← IO.getEnv "HOME").getD "~"
  let config := Path.ofText (home ++ "/.signal-search/config.yaml")
  let files ← readFiles config argv
  let w : Command.World := {
    env := ← readVariables [Settings.sortVariable, Settings.windowVariable,
      Settings.limitVariable, Settings.verbatimVariable]
    clock := ← readClock
    config := config
    jsonDepth := 994
    yamlDepth := 450
    read := fun p => ((files.find? fun f => f.1 == p).map Prod.snd).getD (.error .missing) }
  match Command.run w argv with
  | .ok o => printOutcome o
  | .error f =>
    IO.eprint ("Error: " ++ f.text ++ "\n")
    return 1
