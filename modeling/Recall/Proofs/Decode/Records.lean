/-
Recall.Proofs.Decode.Records — decoded records are valid, and no two share an id.

Each kind of record has a schema (`Thread.Valid`, `Space.Valid` and so on): ids, names, tags and the
two parts of a citation are trimmed and not blank, words are in their vocabularies, tags have no
repeats, amounts are not negative, the days and the month of a schedule are within their bounds, and
every timestamp is one that normalizing leaves as it is. Building a record from the members of any
object gives one that is valid, because reading each field does; `decoded_records` then puts this
together with what `Recall.Proofs.Decode.Entries` says of the ids.

Tasks are the only records that may not be built; what is said of them is said of the lists that
are, and `Recall.Proofs.Decode.Clock` says which lists are not.
-/
import Recall.Proofs.Decode.Entries

namespace Recall

/-! ## 1. Schemas -/

/-- A timestamp that normalizing leaves as it is. -/
def Timestamp.Normal (s : String) : Prop :=
  ∀ fallback, Timestamp.normalize (some s) fallback = s

theorem Timestamp.normal_of_written {s : String} (h : Timestamp.Written s) : Timestamp.Normal s :=
  Timestamp.normalize_of_written h

/-- An optional text is not blank. -/
def Text.Filled (s : Option String) : Prop :=
  ∀ t ∈ s, Text.isBlank t = false

/-- Both parts of a citation are trimmed. -/
structure Citation.Valid (c : Citation) : Prop where
  title : Text.Trimmed c.title
  url : Text.Trimmed c.url

structure Thread.Valid (t : Thread) : Prop where
  id : Text.Trimmed t.id
  mode : t.mode ∈ Decode.answerModes
  sources : t.sources ∈ Decode.sourceModes
  createdAt : Timestamp.Normal t.createdAt
  citations : ∀ c ∈ t.citations, c.Valid
  title : Text.Filled t.title
  tags : ∀ tag ∈ t.tags, Text.Trimmed tag
  nodup_tags : t.tags.Nodup
  spaceId : Text.Filled t.spaceId
  spaceName : Text.Filled t.spaceName
  latencyMs : 0 ≤ t.latencyMs

structure Space.Valid (s : Space) : Prop where
  id : Text.Trimmed s.id
  name : Text.Trimmed s.name
  preferredModel : Text.Filled s.preferredModel
  sourcePolicy : s.sourcePolicy ∈ Decode.sourcePolicies
  createdAt : Timestamp.Normal s.createdAt

structure Collection.Valid (c : Collection) : Prop where
  id : Text.Trimmed c.id
  name : Text.Trimmed c.name
  createdAt : Timestamp.Normal c.createdAt

structure LibraryFile.Valid (f : LibraryFile) : Prop where
  id : Text.Trimmed f.id
  name : Text.Trimmed f.name
  size : 0 ≤ f.size
  addedAt : Timestamp.Normal f.addedAt

structure Task.Valid (t : Task) : Prop where
  id : Text.Trimmed t.id
  name : Text.Trimmed t.name
  cadence : t.cadence ∈ Decode.cadences
  mode : t.mode ∈ Decode.answerModes
  sources : t.sources ∈ Decode.sourceModes
  createdAt : Timestamp.Normal t.createdAt
  nextRun : Timestamp.Normal t.nextRun
  lastRun : ∀ s ∈ t.lastRun, Timestamp.Normal s
  lastThreadId : Text.Filled t.lastThreadId
  dayOfWeek : ∀ n ∈ t.dayOfWeek, 0 ≤ n ∧ n ≤ 7
  dayOfMonth : ∀ n ∈ t.dayOfMonth, 1 ≤ n ∧ n ≤ 31
  monthOfYear : ∀ n ∈ t.monthOfYear, 1 ≤ n ∧ n ≤ 12
  spaceId : Text.Filled t.spaceId
  spaceName : Text.Filled t.spaceName

namespace Decode

/-! ## 2. Parts of records -/

theorem filled_text? (j : Json) : Text.Filled (text? j) :=
  fun _ ht => isBlank_of_text? ht

/-- A record without a name has one that says what it is. -/
theorem trimmed_name (members : Members) {what : String}
    (h : Text.Trimmed ("Untitled " ++ what)) : Text.Trimmed (name members what) := by
  rw [name]
  cases hname : trimmed? (Json.field members "name") with
  | none => exact h
  | some s => exact trimmed_of_trimmed? hname

theorem written_created (members : Members) (key : String) :
    Timestamp.Written (created members key) :=
  written_timestamp ⟨0, by decide +kernel⟩ _

theorem normal_created (members : Members) (key : String) :
    Timestamp.Normal (created members key) :=
  Timestamp.normal_of_written (written_created members key)

theorem valid_of_citation? {j : Json} {c : Citation} (h : citation? j = some c) : c.Valid := by
  cases j with
  | obj members =>
    simp only [citation?] at h
    split at h
    · cases h
    · rename_i hurl
      cases h
      have htrimmed := Text.trimmed_trim_of_ne hurl
      refine ⟨?_, htrimmed⟩
      split
      · exact htrimmed
      · rename_i htitle
        exact Text.trimmed_trim_of_ne htitle
  | _ => cases h

theorem valid_of_mem_citations {j : Json} {c : Citation} (h : c ∈ citations j) : c.Valid := by
  cases j with
  | arr items =>
    obtain ⟨item, -, hitem⟩ := List.mem_filterMap.mp h
    exact valid_of_citation? hitem
  | _ => cases h

/-! ## 3. Records -/

section Valid

variable {id : String} (h : Text.Trimmed id) (members : Members)

include h

theorem valid_thread : (thread id members).Valid where
  id := h
  mode := choice_mem (by decide) _
  sources := choice_mem (by decide) _
  createdAt := normal_created members _
  citations _ hc := valid_of_mem_citations hc
  title := filled_text? _
  tags _ ht := trimmed_of_mem_textList ht
  nodup_tags := nodup_textList _
  spaceId := filled_text? _
  spaceName := filled_text? _
  latencyMs := amount_nonneg _

theorem valid_space : (space id members).Valid where
  id := h
  name := trimmed_name members (by decide +kernel)
  preferredModel := filled_text? _
  sourcePolicy := choice_mem (by decide) _
  createdAt := normal_created members _

theorem valid_collection : (collection id members).Valid where
  id := h
  name := trimmed_name members (by decide +kernel)
  createdAt := normal_created members _

theorem valid_file : (file id members).Valid where
  id := h
  name := trimmed_name members (by decide +kernel)
  size := amount_nonneg _
  addedAt := normal_created members _

theorem valid_of_task {t : Task} (ht : task id members = .ok t) : t.Valid := by
  rw [task] at ht
  obtain ⟨time, -, ht⟩ := exists_of_bind_eq_ok ht
  cases ht
  exact {
    id := h
    name := trimmed_name members (by decide +kernel)
    cadence := choice_mem (by decide) _
    mode := choice_mem (by decide) _
    sources := choice_mem (by decide) _
    createdAt := normal_created members _
    nextRun := Timestamp.normal_of_written (written_timestamp (written_created members _) _)
    lastRun := by
      intro s hs
      split at hs
      · cases hs
      · cases hs
        exact Timestamp.normal_of_written (written_timestamp ⟨0, by decide +kernel⟩ _)
    lastThreadId := filled_text? _
    dayOfWeek := fun _ hn => bounds_of_mem_bounded? hn
    dayOfMonth := fun _ hn => bounds_of_mem_bounded? hn
    monthOfYear := fun _ hn => bounds_of_mem_bounded? hn
    spaceId := filled_text? _
    spaceName := filled_text? _ }

end Valid

/-- What a task that is built is read from: its time from a clock, and its references from texts. -/
theorem fields_of_task {id : String} {members : Members} {t : Task}
    (h : task id members = .ok t) : t.id = id ∧
      clock (Json.field members "time") = .ok t.time ∧
      t.spaceId = text? (Json.field members "spaceId") ∧
      t.lastThreadId = text? (Json.field members "lastThreadId") := by
  rw [task] at h
  obtain ⟨time, hclock, h⟩ := exists_of_bind_eq_ok h
  cases h
  exact ⟨rfl, hclock, rfl, rfl⟩

theorem id_of_task {id : String} {members : Members} {t : Task} (h : task id members = .ok t) :
    t.id = id :=
  (fields_of_task h).1

/-! ## 4. Lists of records -/

/-- Records that are always built are a special case of records that may not be. -/
theorem decoded_map {α : Type} (j : Json) {build : String → Members → α} {idOf : α → String}
    {Valid : α → Prop} (hid : ∀ id members, idOf (build id members) = id)
    (hvalid : ∀ {id}, Text.Trimmed id → ∀ members, Valid (build id members)) :
    Decoded j (fun id members => .ok (build id members)) idOf Valid
      ((identified j).map fun (id, members) => build id members) := by
  refine decoded_of_mapM ?_ ?_ List.mapM_pure
  · rintro id members r ⟨⟩
    exact hid id members
  · rintro id members r htrimmed ⟨⟩
    exact hvalid htrimmed members

/-- Whatever is stored, the records that are read of it have the ids of the usable entries, each once
and in order of first occurrence; each is built from the first entry with its id, and is valid. -/
theorem decoded_records (j : Json) :
    Decoded j (fun id members => .ok (thread id members)) Thread.id Thread.Valid (threads j) ∧
      Decoded j (fun id members => .ok (space id members)) Space.id Space.Valid (spaces j) ∧
      Decoded j (fun id members => .ok (collection id members)) Collection.id Collection.Valid
        (collections j) ∧
      Decoded j (fun id members => .ok (file id members)) LibraryFile.id LibraryFile.Valid
        (files j) ∧
      ∀ ts, tasks j = .ok ts → Decoded j task Task.id Task.Valid ts := by
  refine ⟨?_, ?_, ?_, ?_, ?_⟩
  · exact decoded_map j (fun _ _ => rfl) fun h members => valid_thread h members
  · exact decoded_map j (fun _ _ => rfl) fun h members => valid_space h members
  · exact decoded_map j (fun _ _ => rfl) fun h members => valid_collection h members
  · exact decoded_map j (fun _ _ => rfl) fun h members => valid_file h members
  · intro ts hts
    exact decoded_of_mapM id_of_task (fun h ht => valid_of_task h _ ht) hts

/-- Two ids that are one without their blanks, an id that is no text, and no object at all. -/
def colliding : Json :=
  .arr [.obj [("id", .str " a "), ("time", .str "7:05"), ("dayOfWeek", .int 9)], .int 3,
    .obj [("id", .int 1)], .obj [("id", .str "b"), ("lastRun", .bool true)],
    .obj [("id", .str "a"), ("time", .str "8:00")]]

theorem decoded_records_colliding :
    ∃ ts, tasks colliding = .ok ts ∧ Decoded colliding task Task.id Task.Valid ts ∧
      ts.map (fun t => (t.id, t.time)) = [("a", "07:05"), ("b", "09:00")] := by
  have hread : (tasks colliding).map (List.map fun t => (t.id, t.time)) =
      .ok [("a", "07:05"), ("b", "09:00")] := by decide +kernel
  cases hts : tasks colliding with
  | error e =>
    rw [hts] at hread
    cases hread
  | ok ts =>
    rw [hts] at hread
    exact ⟨ts, rfl, (decoded_records colliding).2.2.2.2 ts hts, Except.ok.inj hread⟩

end Decode

end Recall
