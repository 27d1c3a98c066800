/-
Recall.Command.Invocation — what a command line asks for.

There are two commands: `parse` shows how a query is read, and `search` runs one over a storage
export. A command line without a command is answered with the usage.
-/
import Recall.Command.Arguments
import Recall.FileTree.Path
import Recall.Saved.Basic

namespace Recall

/-- The arguments of a search. -/
structure SearchArguments where
  query : String
  /-- The path of the storage export. -/
  data : Path
  filter : String
  sortBy : Option String
  window : Option String
  limit : Option Int
  verbatim : Bool
  /-- The time to search at, as it was written. -/
  now : Option String
  /-- The path of the settings file. -/
  config : Option Path
  deriving DecidableEq, Repr

/-- What a command line asks for. -/
inductive Invocation where
  | usage
  | parse (query : String) (verbatim : Bool)
  | search (a : SearchArguments)
  deriving DecidableEq, Repr

namespace Invocation

open Arguments

/-! ## 1. Grammars -/

def logLevels : List String := ["DEBUG", "INFO", "WARNING", "ERROR", "CRITICAL"]

/-- The option that asks for help. -/
def helpRule : Rule := ⟨"-h", ["--help"], .help⟩

/-- An option whose value is one of some words. -/
def choiceRule (name : String) (others words : List String) : Rule :=
  ⟨name, others, .value words.contains⟩

/-- An option with any value. -/
def textRule (name : String) (others : List String) : Rule :=
  ⟨name, others, .value fun _ => true⟩

/-- The option that asks for phrases. -/
def verbatimRule : Rule := ⟨"--verbatim", [], .mark⟩

/-- What stands in front of the command. -/
def mainGrammar : Grammar := ⟨[helpRule, choiceRule "--log-level" [] logLevels], .rest⟩

/-- The arguments of `parse`. -/
def parseGrammar : Grammar := ⟨[helpRule, verbatimRule], .one⟩

/-- The arguments of `search`. -/
def searchGrammar : Grammar where
  rules := [
    helpRule, textRule "--data" ["-d"], choiceRule "--filter" ["-f"] Saved.filters,
    choiceRule "--sort" ["-s"] Saved.sortOrders, choiceRule "--window" ["-w"] Saved.windows,
    ⟨"--limit", ["-l"], .value fun s => (Chars.integer? s.toList).isSome⟩, verbatimRule,
    textRule "--now" [], textRule "--config" ["-c"]]
  operands := .one

/-! ## 2. Commands -/

/-- The only operand, where there are no extra arguments. -/
def onlyOperand (r : Reading) : Except Refusal String :=
  match r.operands, r.extra with
  | some [s], false => .ok s
  | _, _ => .error .wrong

/-- The invocation of `parse`. -/
def ofParse (argv : List String) : Except Refusal Invocation := do
  let r ← parseGrammar.read argv
  return .parse (← onlyOperand r) (r.has "--verbatim")

/-- The invocation of `search`. -/
def ofSearch (argv : List String) : Except Refusal Invocation := do
  let r ← searchGrammar.read argv
  let query ← onlyOperand r
  match r.value? "--data" with
  | none => .error .wrong
  | some data =>
    return .search {
      query := query
      data := Path.ofText data
      filter := (r.value? "--filter").getD "all"
      sortBy := r.value? "--sort"
      window := r.value? "--window"
      limit := (r.value? "--limit").bind fun s => Chars.integer? s.toList
      verbatim := r.has "--verbatim"
      now := r.value? "--now"
      config := (r.value? "--config").map Path.ofText }

/-- The invocation of a command line. -/
def ofArguments (argv : List String) : Except Refusal Invocation := do
  let r ← mainGrammar.read argv
  let invocation ← match r.operands with
    | none => .ok .usage
    | some ("parse" :: rest) => ofParse rest
    | some ("search" :: rest) => ofSearch rest
    | some _ => .error .wrong
  if r.extra then .error .wrong else return invocation

end Invocation

end Recall
