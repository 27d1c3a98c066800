/-
Recall.Engine.Basic — a search over all kinds of records.

The query is read, each kind in scope is filtered, and what is kept is scored, ranked and cut to
the limit. There is one group for each kind, in the order of the kinds; a kind out of scope has an
empty group. `type:` in the query decides the scope before the caller's filter does.
-/
import Recall.Search.Filter
import Recall.Search.Ranking
import Recall.Settings.Basic
import Recall.Storage.Dataset

namespace Recall

/-- What a caller asks for. Settings fill in what is missing. -/
structure Request where
  raw : String
  filter : String := "all"
  sortBy : Option String := none
  window : Option String := none
  limit : Option Int := none
  verbatim : Option Bool := none
  now : Int := 0
  deriving DecidableEq, Repr

/-- A record that was found. -/
structure Hit where
  record : Record
  score : Score
  badges : List Badge
  deriving DecidableEq, Repr

/-- The records of one kind that were found: how many, and the first of them. -/
structure Group where
  kind : Kind
  total : Nat
  hits : List Hit
  deriving DecidableEq, Repr

/-- The answer to a request. -/
structure Results where
  query : Query
  sortBy : String
  window : String
  limit : Int
  scope : Option String
  groups : List Group
  deriving DecidableEq, Repr

namespace Results

/-- The number of records that were found. -/
def total (r : Results) : Nat :=
  r.groups.foldr (fun g n => g.total + n) 0

/-- The group of the kind with a name. -/
def group? (r : Results) (kind : String) : Option Group :=
  r.groups.find? fun g => g.kind.name == kind

/-- The first hits of the kind with a name. -/
def preview (r : Results) (kind : String) (count : Int) : List Hit :=
  ((r.group? kind).map fun g => g.hits.take count.toNat).getD []

end Results

namespace Engine

/-- The entries of the records of a kind. -/
def entries (d : Dataset) : Kind → List Entry
  | .thread => Entry.ofThreads d.threads d.notes
  | .space => Entry.ofSpaces d.spaces d.spaceTags
  | .collection => d.collections.map Entry.ofCollection
  | .file => d.files.map Entry.ofFile
  | .task => d.tasks.map Entry.ofTask

/-- The hit of an entry with its score. -/
def hit (n : Needle) (e : Entry) (score : Score) : Hit :=
  ⟨e.record, score, (e.facets?.map (Badge.ofFacets n)).getD []⟩

/-- Scores, ranks and cuts the entries that were kept. -/
def rank (n : Needle) (r : Ranking) (limit : Int) (kept : List Entry) : List Hit :=
  let scored := kept.map fun e => (e, Score.ofLowered n e.fields)
  (r.top (fun s => s.2) (fun s => s.1.timestamp) limit scored).map fun s => hit n s.1 s.2

/-- A setting of a request; an empty word counts as missing. -/
def wordOr (fallback : String) (s : Option String) : String :=
  (s.filter fun s => s != "").getD fallback

/-- Reads a query with the default of the settings. -/
def parse (settings : Settings) (raw : String) (verbatim : Option Bool) : Query :=
  Query.parse raw (verbatim.getD settings.verbatim)

/-- The group of a kind. -/
def groupOf (d : Dataset) (q : Query) (scope : Option String) (window : String) (now : Int)
    (r : Ranking) (limit : Int) (kind : Kind) : Group :=
  let kept := if scope.all fun name => name == kind.name
    then Entry.filter q window now (entries d kind) else []
  ⟨kind, kept.length, rank q.needle r limit kept⟩

/-- Answers a request. -/
def search (settings : Settings) (d : Dataset) (rq : Request) : Results :=
  let sortBy := wordOr settings.sortBy rq.sortBy
  let window := wordOr settings.window rq.window
  let limit := rq.limit.getD settings.limit
  let q := Query.parse rq.raw (rq.verbatim.getD (d.verbatim || settings.verbatim))
  let scope := q.operators.kind <|> (Kind.ofFilter? rq.filter).map Kind.name
  let r := Ranking.ofName sortBy q.needle
  ⟨q, sortBy, window, limit, scope, Kind.all.map (groupOf d q scope window rq.now r limit)⟩

end Engine

end Recall
