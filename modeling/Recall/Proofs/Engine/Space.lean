/-
Recall.Proofs.Engine.Space — what a search for a space finds.

The id of a space, whatever its characters, can be typed as the one thing that a query asks for
(`parse_write_spaceId`). Such a search looks at nothing but the space a record belongs to
(`Record.spaceId`), and finds the records that belong to the space with the id, up to case
(`shows_forSpace_iff`). The id asked for is trimmed and the space id of a record is not, so no id finds
a record whose space id has blanks around it.
-/
import Recall.Proofs.Engine.Best
import Recall.Proofs.Query.Needle
import Recall.Proofs.Query.Range

namespace Recall

/-- The id of the space that a record belongs to; a space belongs to itself. -/
def Record.spaceId : Record → Option String
  | .thread t => t.spaceId
  | .space s => some s.id
  | .task t => t.spaceId
  | .collection _ | .file _ => none

/-! ## 1. Typing the id of a space -/

namespace Query

/-- The query that asks for a space by its id and for nothing else. -/
def ofSpaceId (id : String) : Query := { operators := { spaceId := some id } }

theorem parse_write_spaceId {id : String} (h : Text.Trimmed id) (verbatim : Bool) :
    parse (write { spaceId := some id } []) verbatim = ofSpaceId id := by
  have hwell : ({ spaceId := some id } : Operators).WellFormed := by
    constructor <;> simp [h]
  have hwords : ∀ w ∈ ([] : List String), PlainWord w := by simp
  obtain ⟨hoperators, htext⟩ := parse_write hwell hwords verbatim
  generalize write { spaceId := some id } [] = raw at hoperators htext
  have hneedle : (parse raw verbatim).needle =
      if (parse raw verbatim).operators.verbatim.getD verbatim then
        (Needle.ofText (parse raw verbatim).text).phraseOnly
      else Needle.ofText (parse raw verbatim).text := rfl
  have hempty : Needle.ofText (Text.join " " []) = {} := by decide +kernel
  rw [hoperators, htext, hempty, Needle.phraseOnly, ite_self] at hneedle
  calc parse raw verbatim
      = ⟨(parse raw verbatim).text, (parse raw verbatim).needle,
          (parse raw verbatim).operators⟩ := rfl
    _ = ofSpaceId id := by rw [htext, hneedle, hoperators]; rfl

end Query

/-! ## 2. What is accepted -/

namespace Entry

theorem accepted_ofSpaceId_iff {e : Entry} {id : String} {now : Int} :
    e.accepted (Query.ofSpaceId id) "all" now = true ↔
      e.kind.supports .space = true ∧ e.spaceId ≠ "" ∧ Text.lower (Text.trim id) = e.spaceId := by
  have hscope : e.inScope (Query.ofSpaceId id).operators = e.kind.supports .space := by
    simp [inScope, Query.ofSpaceId, Family.all, Family.usedBy, Operators.usesHas,
      Operators.usesTags, Operators.usesStates, Operators.usesSpace]
  have hwindow : Window.admits "all" e.instant now = true := rfl
  have hmatches : (Query.ofSpaceId id).needle.matchesLowered e.combined = true :=
    Needle.matchesLowered_empty e.combined
  have hspace : e.inSpace (Query.ofSpaceId id).operators =
      (e.spaceId != "" && Text.lower (Text.trim id) == e.spaceId) := by
    simp [inSpace, Query.ofSpaceId, Operators.usesSpace]
  have htags : e.hasTags (Query.ofSpaceId id).operators = true := rfl
  have hfacets : e.hasFacets (Query.ofSpaceId id).operators = true := rfl
  have hstates : e.hasStates (Query.ofSpaceId id).operators = true := rfl
  rw [accepted, hscope, hwindow, hmatches, hspace, htags, hfacets, hstates]
  simp only [Bool.and_true, Bool.and_eq_true, bne_iff_ne, ne_eq, beq_iff_eq]

/-- An entry holds the lower case of the space id of its record. -/
theorem spaceId_of_mem_entries {d : Dataset} {kind : Kind} {e : Entry}
    (h : e ∈ Engine.entries d kind) : e.spaceId = Text.lower (e.record.spaceId.getD "") := by
  cases kind <;>
    · obtain ⟨r, -, rfl⟩ := List.mem_map.mp h
      rfl

end Entry

/-! ## 3. What is found -/

/-- The results show a record. -/
def Results.Shows (res : Results) (r : Record) : Prop :=
  ∃ g, res.group? r.kind.name = some g ∧ ∃ x ∈ g.hits, x.record = r

/-- There is room within a limit for the records of every kind. -/
def Dataset.FitsIn (d : Dataset) (limit : Int) : Prop :=
  ∀ kind, ((d.records kind).length : Int) ≤ limit

/-- The request for all that belongs to a space, of whatever kind and time. -/
def Request.forSpace (id : String) (limit : Int) : Request where
  raw := Query.write { spaceId := some id } []
  window := some "all"
  limit := some limit

namespace Engine

/-- Where there is room the results show all that a search should find. -/
theorem shows_iff {settings : Settings} {d : Dataset} {rq : Request} {r : Record}
    (hroom : d.FitsIn (rq.limit.getD settings.limit)) :
    (search settings d rq).Shows r ↔
      ∃ e ∈ (found settings d rq r.kind).map Prod.fst, e.record = r := by
  have hlength : (found settings d rq r.kind).length ≤ (rq.limit.getD settings.limit).toNat := by
    have hfound : (found settings d rq r.kind).length ≤ (d.records r.kind).length := by
      rw [← map_record_entries, List.length_map, ← List.length_zipIdx (l := entries d r.kind)]
      exact List.length_filter_le _ _
    have := hroom r.kind
    omega
  have hbest : ∀ x, x ∈ best settings d rq r.kind ↔ x ∈ found settings d rq r.kind := by
    intro x
    rw [best, List.take_of_length_le, Ranking.sorted, List.mem_mergeSort]
    rwa [Ranking.sorted, List.length_mergeSort]
  rw [Results.Shows, group?_search_eq]
  simp only [Option.some.injEq, exists_eq_left', List.mem_map, exists_exists_and_eq_and, hbest]
  rfl

/-- What a search for the id of a space should find: the entries that the query for it accepts. -/
theorem mem_found_forSpace_iff {settings : Settings} {d : Dataset} {id : String} {limit : Int}
    (hid : Text.Trimmed id) {kind : Kind} {e : Entry} :
    e ∈ (found settings d (.forSpace id limit) kind).map Prod.fst ↔
      e ∈ entries d kind ∧ e.accepted (Query.ofSpaceId id) "all" 0 = true := by
  have hquery : asked settings d (.forSpace id limit) = Query.ofSpaceId id :=
    Query.parse_write_spaceId hid _
  have hwindow : wordOr settings.window (Request.forSpace id limit).window = "all" := rfl
  have hall : "all" ∉ Kind.all.map Kind.plural := by decide
  have hscope : InScope (Query.ofSpaceId id) (Request.forSpace id limit).filter kind :=
    fun hin => absurd hin hall
  rw [map_fst_found, hquery, if_pos hscope, hwindow]
  exact List.mem_filter

/-- **A search for the id of a space shows what belongs to it.** These are the records, of the kinds
that have spaces, whose space id is the one asked for up to case. -/
theorem shows_forSpace_iff {settings : Settings} {d : Dataset} {id : String} {limit : Int}
    (hid : Text.Trimmed id) (hroom : d.FitsIn limit) {r : Record} :
    (search settings d (.forSpace id limit)).Shows r ↔
      r ∈ d.records r.kind ∧ r.kind.supports .space = true ∧
        ∃ s, r.spaceId = some s ∧ Text.lower s = Text.lower id := by
  rw [shows_iff hroom, ← map_record_entries, List.mem_map]
  constructor
  · rintro ⟨e, he, rfl⟩
    obtain ⟨hentry, haccepted⟩ := (mem_found_forSpace_iff hid).mp he
    obtain ⟨hkind, hne, hlower⟩ := Entry.accepted_ofSpaceId_iff.mp haccepted
    rw [Entry.spaceId_of_mem_entries hentry] at hne hlower
    refine ⟨⟨e, hentry, rfl⟩, hkind, ?_⟩
    cases hs : e.record.spaceId with
    | none =>
      rw [hs] at hne
      exact absurd rfl hne
    | some s =>
      rw [hs, hid.2] at hlower
      exact ⟨s, rfl, hlower.symm⟩
  · rintro ⟨⟨e, he, rfl⟩, hkind, s, hs, hlower⟩
    have hspace : e.spaceId = Text.lower id := by
      rw [Entry.spaceId_of_mem_entries he, hs, Option.getD_some, hlower]
    have hne : e.spaceId ≠ "" := by
      rw [hspace]
      exact fun h => hid.1 (Text.lower_eq_empty_iff.mp h)
    have haccepted : e.accepted (Query.ofSpaceId id) "all" 0 = true :=
      Entry.accepted_ofSpaceId_iff.mpr ⟨hkind, hne, by rw [hspace, hid.2]⟩
    exact ⟨e, (mem_found_forSpace_iff hid).mpr ⟨he, haccepted⟩, rfl⟩

end Engine

end Recall
