/-
Recall.Command.Report — what the commands print.
-/
import Recall.Engine.Basic

namespace Recall

namespace Report

/-! ## 1. A query that was read -/

/-- A list of texts. -/
def texts (ss : List String) : Json :=
  .arr (ss.map .str)

/-- An optional truth value. -/
def flag? : Option Bool → Json
  | some b => .bool b
  | none => .null

/-- A query with all that it asks for. -/
def ofQuery (q : Query) : Json :=
  let o := q.operators
  .obj [
    ("text", .str q.text),
    ("query", .obj [("normalized", .str q.needle.phrase), ("tokens", texts q.needle.words)]),
    ("operators", .obj [
      ("type", Json.ofText? o.kind), ("space", Json.ofText? o.space),
      ("space_id", Json.ofText? o.spaceId), ("tags", texts o.tags), ("not_tags", texts o.notTags),
      ("states", texts o.states), ("not_states", texts o.notStates),
      ("has_note", .bool o.hasNote), ("not_has_note", .bool o.notHasNote),
      ("has_citation", .bool o.hasCitation), ("not_has_citation", .bool o.notHasCitation),
      ("verbatim", flag? o.verbatim)])]

/-! ## 2. Results -/

/-- The longest title that is shown whole. -/
def titleWidth : Nat := 60

/-- A title, shortened when it is too long. -/
def shortened (s : String) : String :=
  let cs := s.toList
  if cs.length ≤ titleWidth then s else String.ofList (cs.take (titleWidth - 3)) ++ "..."

/-- The number of something. -/
def number (n : Nat) : String :=
  String.ofList (Chars.digits n)

/-- The two lines of a hit at a place. -/
def hitLines (place : Nat) (h : Hit) : List String :=
  let r := h.record
  let matched := if h.badges.isEmpty then ""
    else " • matched: " ++ Text.join ", " (h.badges.map Badge.name)
  [number place ++ ". " ++ shortened r.title,
    "   id: " ++ r.id ++ " • " ++ r.createdAt ++ " • score: " ++ Score.brief h.score ++ matched]

/-- The lines of hits from a place on. -/
def hitsLines (place : Nat) : List Hit → List String
  | [] => []
  | h :: r => hitLines place h ++ hitsLines (place + 1) r

/-- The lines of a group of which some hits are shown; none when there are no hits. -/
def groupLines (shown : List Hit) (g : Group) : List String :=
  if g.hits.isEmpty then []
  else
    let more := if shown.length < g.total
      then ["   ... and " ++ number (g.total - shown.length) ++ " more"] else []
    ["", "## " ++ g.kind.heading ++ " (" ++ number g.total ++ ")"] ++ hitsLines 1 shown ++ more

/-- The lines of results. A search over every kind shows only the first hits of each. -/
def ofResults (query : String) (topResults : Int) (r : Results) : List String :=
  if r.total = 0 then ["No results found for \"" ++ query ++ "\""]
  else
    let shown (g : Group) : List Hit :=
      if r.scope.isNone then g.hits.take topResults.toNat else g.hits
    ("Search results for \"" ++ query ++ "\" (" ++ number r.total ++ " matches)") ::
      r.groups.flatMap fun g => groupLines (shown g) g

/-- Lines as a text. -/
def text (lines : List String) : String :=
  String.join (lines.map fun l => l ++ "\n")

end Report

end Recall
