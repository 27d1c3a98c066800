/-
Recall.Command.Run — running a command.

A command is a function of the command line, the environment, the clock and the files that it reads.
It prints a text or complains, and ends with a code. Of the files it is told the outcome of reading
a path. Faults that the settings and the export are expected to have are complaints; others stop the
program.
-/
import Recall.Command.Invocation
import Recall.Command.Report
import Recall.Settings.Format

namespace Recall

namespace Command

/-! ## 1. Faults -/

/-- Why a storage export cannot be read. -/
inductive ExportFault where
  | file (e : FileError)
  /-- The file is not encoded in UTF-8. -/
  | notText
  | json (e : Json.ReadError)
  /-- The file holds no object. -/
  | noObject (path : Path)
  deriving DecidableEq, Repr

/-- The wording of a fault of the export itself. -/
def ExportFault.message? : ExportFault → Option String
  | .noObject path => some ("Storage export must be a JSON object: " ++ path.text)
  | _ => none

/-- What a command complains of. -/
inductive Complaint where
  | settings (f : Settings.FileFault Yaml.Error)
  | data (f : ExportFault)
  /-- The time to search at cannot be read. -/
  | badNow (text : String)
  deriving DecidableEq, Repr

/-- The wording of a complaint, where it has one of its own. -/
def Complaint.message? : Complaint → Option String
  | .settings f => f.message?
  | .data f => f.message?
  | .badNow text => some ("Invalid --now timestamp: " ++ text)

/-- A complaint in words, also where it has none of its own. -/
def Complaint.text (c : Complaint) : String :=
  c.message?.getD (match c with
    | .settings .isFolder => "the settings file is a folder"
    | .settings .notText => "the settings file is not encoded in UTF-8"
    | .settings _ => "the settings file is not valid"
    | .data (.file .isFolder) => "the storage export is a folder"
    | .data (.file _) => "there is no storage export"
    | .data .notText => "the storage export is not encoded in UTF-8"
    | .data _ => "the storage export is not valid"
    | .badNow _ => "the time is not valid")

/-- What stops the program. -/
inductive Failure where
  | settings (e : Yaml.Error)
  /-- The export is nested too deep. -/
  | exportTooDeep
  /-- The export holds half of a surrogate pair. -/
  | exportHalf
  | storage (e : Storage.Error)
  deriving DecidableEq, Repr

/-- How a command ends. -/
inductive Outcome where
  /-- The arguments ask for help or are wrong. -/
  | refused (r : Arguments.Refusal)
  /-- The usage is printed. -/
  | usage
  | printed (text : String)
  | complained (c : Complaint)
  deriving DecidableEq, Repr

/-- The code with which a command ends. -/
def Outcome.code : Outcome → Nat
  | .refused .help => 0
  | .refused .wrong => 2
  | .usage => 1
  | .printed _ => 0
  | .complained _ => 1

/-- A failure in words. -/
def Failure.text : Failure → String
  | .settings _ => "the settings file cannot be used"
  | .exportTooDeep => "the storage export is nested too deep"
  | .exportHalf => "the storage export holds half of a character"
  | .storage (.load .tooDeep) => "a stored value is nested too deep"
  | .storage (.load .numberTooLong) => "a stored value has a number with too many digits"
  | .storage .half => "a stored value holds half of a character"
  | .storage (.decode (.badClock t)) => "a stored task has no valid time of day: " ++ t

/-- How the program is called. -/
def usageText : String :=
  Report.text [
    "usage: signal-search [-h] [--log-level LEVEL] COMMAND ...",
    "",
    "  parse QUERY [--verbatim]",
    "      show how a query is read",
    "  search QUERY -d FILE [-f KINDS] [-s ORDER] [-w WINDOW] [-l LIMIT]",
    "         [--verbatim] [--now TIME] [-c FILE]",
    "      search a storage export"]

/-! ## 2. Inputs -/

/-- What a command is given besides its arguments. -/
structure World where
  /-- The environment variables. -/
  env : List (String × String) := []
  /-- The present, in milliseconds. -/
  clock : Int
  /-- The settings file that is read when none is named. -/
  config : Path
  /-- How deep JSON may be nested. -/
  jsonDepth : Nat
  /-- How deep YAML may be nested. -/
  yamlDepth : Nat
  /-- The outcome of reading a path. -/
  read : Path → Except FileError (List UInt8)

/-- A complaint, or what stops the program. -/
abbrev Trouble := Sum Failure Complaint

/-- Whether a fault of the settings is expected. -/
def settingsTrouble : Settings.FileFault Yaml.Error → Trouble
  | .format e =>
    match e with
    | .malformed => .inr (.settings (.format e))
    | .badNumber => .inr (.settings (.format e))
    | .badDate => .inr (.settings (.format e))
    | .noCharacter => .inr (.settings (.format e))
    | e => .inl (.settings e)
  | f => .inr (.settings f)

/-- The settings of a file, as the environment sets them. -/
def settings (w : World) (path : Path) : Except Trouble Settings :=
  match Settings.ofFile (Settings.yaml w.yamlDepth) path (w.read path) with
  | .ok s => .ok (Settings.withEnvironment s.members w.env)
  | .error f => .error (settingsTrouble f)

/-- The members of an export. -/
def members (w : World) (path : Path) : Except Trouble (List (String × Json)) :=
  match w.read path with
  | .error e => .error (.inr (.data (.file e)))
  | .ok bytes =>
    match Encoding.plainUtf8? bytes with
    | none => .error (.inr (.data .notText))
    | some cs =>
      match Json.read w.jsonDepth (Symbol.ofChars cs) with
      | .ok (.obj ms) =>
        match Json.wholeMembers? ms with
        | some ms => .ok ms
        | none => .error (.inl .exportHalf)
      | .ok _ => .error (.inr (.data (.noObject path)))
      | .error e =>
        if e.limit? = some .tooDeep then .error (.inl .exportTooDeep)
        else .error (.inr (.data (.json e)))

/-- The time to search at: the one that is named, or the present. -/
def now (w : World) : Option String → Except Trouble Int
  | none => .ok w.clock
  | some s =>
    match (Timestamp.parse? s).filter fun ms => (Timestamp.format? ms).isSome with
    | some ms => .ok ms
    | none => .error (.inr (.badNow s))

/-! ## 3. Commands -/

/-- Runs a search. -/
def search (w : World) (a : SearchArguments) : Except Trouble String := do
  let settings ← settings w (a.config.getD w.config)
  let ms ← members w a.data
  let now ← now w a.now
  let blobs := ms.map fun (k, v) => (k, Stored.value v)
  let dataset ← (Storage.dataset w.jsonDepth blobs ((Timestamp.format? now).getD "")).mapError
    fun e => (.inl (.storage e) : Trouble)
  let results := Engine.search settings dataset {
    raw := a.query
    filter := a.filter
    sortBy := a.sortBy
    window := a.window
    limit := a.limit
    verbatim := if a.verbatim then some true else none
    now := now }
  return Report.text (Report.ofResults a.query settings.topResults results)

/-- Runs a command line. -/
def run (w : World) (argv : List String) : Except Failure Outcome :=
  match Invocation.ofArguments argv with
  | .error r => .ok (.refused r)
  | .ok .usage => .ok .usage
  | .ok (.parse query verbatim) =>
    let report := Report.ofQuery (Query.parse query verbatim)
    .ok (.printed (Json.write Json.openLayout report ++ "\n"))
  | .ok (.search a) =>
    match search w a with
    | .ok text => .ok (.printed text)
    | .error (.inr c) => .ok (.complained c)
    | .error (.inl f) => .error f

end Command

end Recall
