/-
Recall.Saved.Basic — saved searches: their settings, their names and their order.
-/
import Recall.Json.Writer
import Recall.Text.Case
import Recall.Time.Timestamp

namespace Recall

/-- A search that was saved under a name. -/
structure SavedSearch where
  id : String
  name : String
  query : String := ""
  filter : String := "all"
  sortBy : String := "relevance"
  window : String := "all"
  limit : Int := 20
  verbatim : Bool := false
  pinned : Bool := false
  createdAt : String := ""
  updatedAt : String := ""
  deriving DecidableEq, Repr

namespace Saved

/-! ## 1. Settings -/

def filters : List String := ["all", "threads", "spaces", "collections", "files", "tasks"]
def sortOrders : List String := ["relevance", "newest", "oldest"]
def windows : List String := ["all", "24h", "7d", "30d"]
def limits : List Int := [10, 20, 50]
def defaultLimit : Int := 20

/-- A string of a vocabulary, or a default. -/
def wordOr (vocabulary : List String) (fallback : String) (j : Json) : String :=
  (j.str?.filter vocabulary.contains).getD fallback

/-- A filter; anything else keeps everything. -/
def filterOf (j : Json) : String := wordOr filters "all" j

/-- A sort order; anything else is by relevance. -/
def sortOf (j : Json) : String := wordOr sortOrders "relevance" j

/-- A window; anything else is unbounded. -/
def windowOf (j : Json) : String := wordOr windows "all" j

/-- A number of results; anything else is the default. -/
def limitOf : Json → Int
  | .int n => if limits.contains n then n else defaultLimit
  | _ => defaultLimit

/-! ## 2. Names -/

/-- The longest query that is a name as it is. -/
def maxNameLength : Nat := 60

/-- The name made from what is not at its default. -/
def nameOfSettings (filter sortBy window : String) (verbatim : Bool) : String :=
  let parts := (if filter = "all" then [] else [filter]) ++
    (if window = "all" then [] else [window]) ++
    (if sortBy = "relevance" then [] else [sortBy]) ++
    (if verbatim then ["verbatim"] else [])
  if parts.isEmpty then "Saved search" else Text.join " · " parts

/-- The name of a search that was given none: its query, shortened when it is too long. -/
def defaultName (query filter sortBy window : String) (verbatim : Bool) : String :=
  let q := Chars.trim query.toList
  if q.isEmpty then nameOfSettings filter sortBy window verbatim
  else if maxNameLength < q.length then
    String.ofList (q.take (maxNameLength - 3) ++ ['.', '.', '.'])
  else String.ofList q

/-- A name as it is kept: words with single spaces. -/
def cleanName (name : String) : String :=
  Text.collapse name

/-! ## 3. Equal searches -/

/-- The settings of a search as one text, which two searches share when they would find the same:
the name, the pin and the dates are left out. A limit may be too long to be written. -/
def fingerprint (s : SavedSearch) : Except Json.WriteError String :=
  Json.tryWrite Json.plainLayout (.obj [
    ("filter", .str s.filter), ("query", .str (Text.trim s.query)), ("resultLimit", .int s.limit),
    ("sortBy", .str s.sortBy), ("timelineWindow", .str s.window), ("verbatim", .bool s.verbatim)])

/-- The first search with a fingerprint. -/
def withFingerprint? (print : String) :
    List SavedSearch → Except Json.WriteError (Option SavedSearch)
  | [] => .ok none
  | s :: r => do
    if (← fingerprint s) = print then return some s else withFingerprint? print r

/-- The first search with the settings of another. -/
def findDuplicate? (searches : List SavedSearch) (s : SavedSearch) :
    Except Json.WriteError (Option SavedSearch) := do
  withFingerprint? (← fingerprint s) searches

/-! ## 4. Order -/

/-- Whether one search may stand before another: pinned ones first, then dated ones, the latest
update first, then names whatever their case. -/
def le (s t : SavedSearch) : Bool :=
  if s.pinned != t.pinned then s.pinned
  else
    match Timestamp.parse? s.updatedAt, Timestamp.parse? t.updatedAt with
    | some _, none => true
    | none, some _ => false
    | a, b =>
      let x := a.getD 0
      let y := b.getD 0
      y < x || (x == y && Chars.le (Chars.foldCase s.name.toList) (Chars.foldCase t.name.toList))

/-- The searches in order; equal ones stay as they are. -/
def sort (searches : List SavedSearch) : List SavedSearch :=
  searches.mergeSort le

end Saved

end Recall
