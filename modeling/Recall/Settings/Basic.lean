/-
Recall.Settings.Basic — the defaults of searches.

Settings are made from members, as an object or a file has them. Whatever is unknown or mistyped
takes its default, so every object gives valid settings; valid settings come back from their own
members.
-/
import Recall.Saved.Basic
import Recall.Selection.Basic

namespace Recall

/-- The defaults of searches. -/
structure Settings where
  sortBy : String := "relevance"
  window : String := "all"
  limit : Int := 20
  verbatim : Bool := false
  recentLimit : Int := 5
  topResults : Int := 3
  deriving DecidableEq, Repr, Inhabited

namespace Settings

/-! ## 1. Members -/

/-- A positive integer, or a default. -/
def positiveOr (fallback : Int) : Json → Int
  | .int n => if 0 < n then n else fallback
  | _ => fallback

/-- Whether a value is the truth value `true` itself. -/
def isTrue : Json → Bool
  | .bool b => b
  | _ => false

/-- The settings that members give. -/
def ofMembers (members : List (String × Json)) : Settings :=
  let get := Json.field members
  { sortBy := Saved.sortOf (get "default_sort")
    window := Saved.windowOf (get "default_timeline")
    limit := Saved.limitOf (get "result_limit")
    verbatim := isTrue (get "verbatim")
    recentLimit := positiveOr 5 (get "recent_query_limit")
    topResults := positiveOr 3 (get "top_results") }

/-- The members of settings. -/
def members (s : Settings) : List (String × Json) := [
  ("default_sort", .str s.sortBy), ("default_timeline", .str s.window),
  ("result_limit", .int s.limit), ("verbatim", .bool s.verbatim),
  ("recent_query_limit", .int s.recentLimit), ("top_results", .int s.topResults)]

/-- Settings with words of their vocabularies and positive numbers. -/
def Valid (s : Settings) : Prop :=
  s.sortBy ∈ Saved.sortOrders ∧ s.window ∈ Saved.windows ∧ s.limit ∈ Saved.limits ∧
    0 < s.recentLimit ∧ 0 < s.topResults

/-! ## 2. The environment -/

def sortVariable : String := "SIGNAL_SEARCH_SORT"
def windowVariable : String := "SIGNAL_SEARCH_TIMELINE"
def limitVariable : String := "SIGNAL_SEARCH_LIMIT"
def verbatimVariable : String := "SIGNAL_SEARCH_VERBATIM"

/-- The value of an environment variable. -/
def setting? (name : String) : List (String × String) → Option String
  | [] => none
  | (k, v) :: rest => if k = name then some v else setting? name rest

/-- The words that turn phrase search on. -/
def switchedOn : List String := ["1", "true", "yes", "on"]

/-- A word as it is looked up: trimmed and lowered. -/
def wordOf (s : String) : String :=
  Text.lower (Text.trim s)

/-- What the environment sets, by the names of the members. A limit that is no integer sets
nothing. -/
def overrides (env : List (String × String)) : List (String × Json) :=
  let sort := (setting? sortVariable env).map fun s => ("default_sort", Json.str (wordOf s))
  let window := (setting? windowVariable env).map fun s => ("default_timeline", Json.str (wordOf s))
  let limit := (setting? limitVariable env).bind fun s =>
    (Chars.integer? s.toList).map fun n => ("result_limit", Json.int n)
  let verbatim := (setting? verbatimVariable env).map fun s =>
    ("verbatim", Json.bool (switchedOn.contains (wordOf s)))
  [sort, window, limit, verbatim].filterMap id

/-- The settings that members give once the environment has set some of them. -/
def withEnvironment (members : List (String × Json)) (env : List (String × String)) : Settings :=
  ofMembers ((overrides env).foldl (fun done (k, v) => Json.put done k v) members)

end Settings

end Recall
