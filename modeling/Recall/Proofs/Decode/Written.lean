/-
Recall.Proofs.Decode.Written — what was decoded once is decoded as it is.

A record is written back as an object with the members that it is read from (`Thread.members` and so
on), a missing value as `null`. What reading gives is in a form that is read as it is: this is so
field by field (section 1), hence for every record that is valid (section 2), hence for lists of
records with distinct ids, which is what lists of records are after reading
(`Recall.Proofs.Decode.Entries`). Maps and lists of texts go the same way: the keys are trimmed and
distinct after the first reading (`Keyed`), and so are the texts.

A schema says nothing of the time of a task; what is read there is a `TimeOfDay`.
-/
import Recall.Proofs.Decode.Keyed
import Recall.Proofs.Decode.Records
import Recall.Proofs.Decode.TimeOfDay

namespace Recall

/-! ## 1. Fields -/

/-- An optional integer, `null` when there is none. -/
def Json.ofInt? : Option Int → Json
  | some n => .int n
  | none => .null

/-- A citation as it is stored. -/
def Citation.stored (c : Citation) : Json :=
  .obj [("title", .str c.title), ("url", .str c.url)]

namespace Decode

theorem text_str (s fallback : String) : text (.str s) fallback = s := rfl

theorem choice_str {vocabulary : List String} {s : String} (h : s ∈ vocabulary)
    (fallback : String) : choice vocabulary fallback (.str s) = s := by
  simp [choice, Json.str?, Option.filter, h]

theorem text?_ofText? {s : Option String} (h : Text.Filled s) : text? (Json.ofText? s) = s := by
  cases s with
  | none => rfl
  | some t => exact text?_str (h t rfl)

theorem timestamp_str {s : String} (h : Timestamp.Normal s) (fallback : String) :
    timestamp (.str s) fallback = s :=
  h fallback

theorem amount_int {n : Int} (h : 0 ≤ n) : amount (.int n) = n :=
  if_neg (Int.not_lt.mpr h)

theorem bounded?_ofInt? {low high : Int} {n : Option Int} (h : ∀ k ∈ n, low ≤ k ∧ k ≤ high) :
    bounded? low high (Json.ofInt? n) = n := by
  cases n with
  | none => rfl
  | some k => exact if_pos (h k rfl)

theorem citation?_stored {c : Citation} (h : c.Valid) : citation? c.stored = some c := by
  simp [Citation.stored, citation?, Json.field, Json.lookup?, text_str, h.title.1, h.title.2,
    h.url.1, h.url.2]

theorem citations_stored {cs : List Citation} (h : ∀ c ∈ cs, c.Valid) :
    citations (.arr (cs.map Citation.stored)) = cs := by
  have hread : ∀ c ∈ cs, (citation? ∘ Citation.stored) c = some c := by
    intro c hc
    rw [Function.comp_apply, citation?_stored (h c hc)]
  rw [citations, List.filterMap_map, List.filterMap_congr hread, List.filterMap_some]

end Decode

/-! ## 2. Records -/

/-- The members that a thread is read from. -/
def Thread.members (t : Thread) : Members :=
  [("id", .str t.id), ("question", .str t.question), ("answer", .str t.answer),
   ("mode", .str t.mode), ("sources", .str t.sources), ("createdAt", .str t.createdAt),
   ("citations", .arr (t.citations.map Citation.stored)), ("title", .ofText? t.title),
   ("tags", .texts t.tags), ("spaceId", .ofText? t.spaceId), ("spaceName", .ofText? t.spaceName),
   ("pinned", .bool t.pinned), ("favorite", .bool t.favorite), ("archived", .bool t.archived),
   ("provider", .str t.provider), ("latencyMs", .int t.latencyMs)]

/-- The members that a space is read from. -/
def Space.members (s : Space) : Members :=
  [("id", .str s.id), ("name", .str s.name), ("instructions", .str s.instructions),
   ("preferredModel", .ofText? s.preferredModel), ("sourcePolicy", .str s.sourcePolicy),
   ("createdAt", .str s.createdAt)]

/-- The members that a collection is read from. -/
def Collection.members (c : Collection) : Members :=
  [("id", .str c.id), ("name", .str c.name), ("createdAt", .str c.createdAt)]

/-- The members that a file is read from. -/
def LibraryFile.members (f : LibraryFile) : Members :=
  [("id", .str f.id), ("name", .str f.name), ("size", .int f.size), ("type", .str f.type),
   ("text", .str f.text), ("addedAt", .str f.addedAt)]

/-- The members that a task is read from. -/
def Task.members (t : Task) : Members :=
  [("id", .str t.id), ("name", .str t.name), ("prompt", .str t.prompt), ("cadence", .str t.cadence),
   ("time", .str t.time), ("mode", .str t.mode), ("sources", .str t.sources),
   ("createdAt", .str t.createdAt), ("nextRun", .str t.nextRun), ("lastRun", .ofText? t.lastRun),
   ("lastThreadId", .ofText? t.lastThreadId), ("dayOfWeek", .ofInt? t.dayOfWeek),
   ("dayOfMonth", .ofInt? t.dayOfMonth), ("monthOfYear", .ofInt? t.monthOfYear),
   ("spaceId", .ofText? t.spaceId), ("spaceName", .ofText? t.spaceName)]

namespace Decode

/-! Each of these goes through the fields of a kind: the member is found under its key, and is read
as it is. -/

theorem thread_members {t : Thread} (h : t.Valid) : thread t.id t.members = t := by
  simp [thread, Thread.members, Json.field, Json.lookup?, created, text_str, flag,
    choice_str h.mode, choice_str h.sources, timestamp_str h.createdAt, citations_stored h.citations,
    text?_ofText? h.title, text?_ofText? h.spaceId, text?_ofText? h.spaceName,
    textList_texts h.tags h.nodup_tags, amount_int h.latencyMs]

theorem space_members {s : Space} (h : s.Valid) : space s.id s.members = s := by
  simp [space, Space.members, Json.field, Json.lookup?, name, trimmed?_str h.name, created, text_str,
    choice_str h.sourcePolicy, timestamp_str h.createdAt, text?_ofText? h.preferredModel]

theorem collection_members {c : Collection} (h : c.Valid) : collection c.id c.members = c := by
  simp [collection, Collection.members, Json.field, Json.lookup?, name, trimmed?_str h.name, created,
    timestamp_str h.createdAt]

theorem file_members {f : LibraryFile} (h : f.Valid) : file f.id f.members = f := by
  simp [file, LibraryFile.members, Json.field, Json.lookup?, name, trimmed?_str h.name, created,
    text_str, amount_int h.size, timestamp_str h.addedAt]

/-- The last run of a task, if there was one, is read as it is. -/
theorem lastRun_ofText? {s : Option String} (h : ∀ t ∈ s, Timestamp.Normal t) (fallback : String) :
    (if (Json.ofText? s).isNull then none else some (timestamp (Json.ofText? s) fallback)) = s := by
  cases s with
  | none => rfl
  | some t => exact congrArg some (timestamp_str (h t rfl) fallback)

/-- A task is read as it is if its time is a time of day. -/
theorem task_members {t : Task} (h : t.Valid) {hour : Nat} {minutes : List Char}
    (htime : TimeOfDay t.time hour minutes) : task t.id t.members = .ok t := by
  have hclock : clock (Json.field t.members "time") = .ok t.time := clock_str htime
  rw [task, hclock]
  refine congrArg Except.ok ?_
  simp [Task.members, Json.field, Json.lookup?, name, trimmed?_str h.name, created, text_str,
    choice_str h.cadence, choice_str h.mode, choice_str h.sources, timestamp_str h.createdAt,
    timestamp_str h.nextRun, lastRun_ofText? h.lastRun, text?_ofText? h.lastThreadId,
    bounded?_ofInt? h.dayOfWeek, bounded?_ofInt? h.dayOfMonth, bounded?_ofInt? h.monthOfYear,
    text?_ofText? h.spaceId, text?_ofText? h.spaceName]

/-! ## 3. Lists of records -/

theorem firstOfKey_eq_self {α : Type} : ∀ {l : List (String × α)}, (l.map Prod.fst).Nodup →
    firstOfKey l = l
  | [], _ => rfl
  | a :: r, h => by
      rw [List.map_cons, List.nodup_cons] at h
      have hother : ∀ b ∈ r, (b.1 != a.1) = true := by
        intro b hb
        refine bne_iff_ne.mpr fun heq => h.1 ?_
        exact heq ▸ List.mem_map_of_mem hb
      rw [firstOfKey, firstOfKey_eq_self h.2, List.filter_eq_self.mpr hother]

/-- Records of a kind are read as they are: under the id that they have, from the members that they are
written with. -/
structure ReadAsWritten {α : Type} (build : String → Members → Except DecodeError α)
    (idOf : α → String) (members : α → Members) (r : α) : Prop where
  id : identify? (.obj (members r)) = some (idOf r, members r)
  build : build (idOf r) (members r) = .ok r

theorem identify?_obj {members : Members} {id : String} (hfield : Json.field members "id" = .str id)
    (h : Text.Trimmed id) : identify? (.obj members) = some (id, members) := by
  rw [identify?, hfield, trimmed?_str h, Option.map_some]

/-- What was read of a stored list is read as it is, if its records are. -/
theorem mapM_identified_written {α : Type} {j : Json}
    {build : String → Members → Except DecodeError α} {idOf : α → String} {members : α → Members}
    {Valid : α → Prop} {records : List α} (hread : ∀ r, Valid r → ReadAsWritten build idOf members r)
    (h : Decoded j build idOf Valid records) :
    (identified (.arr (records.map fun r => .obj (members r)))).mapM
      (fun (id, members) => build id members) = .ok records := by
  have hpairs : (records.map fun r => Json.obj (members r)).filterMap identify? =
      records.map fun r => (idOf r, members r) := by
    rw [List.filterMap_map, ← List.filterMap_eq_map]
    exact List.filterMap_congr fun r hr => (hread r (h.valid r hr)).id
  have hnodup : ((records.map fun r => (idOf r, members r)).map Prod.fst).Nodup := by
    rw [List.map_map]
    exact h.nodup
  rw [identified, hpairs, firstOfKey_eq_self hnodup, mapM_eq_ok_iff, List.forall₂_map_left_iff]
  exact List.forall₂_same.mpr fun r hr => (hread r (h.valid r hr)).build

/-- The same for records that are always built. -/
theorem map_identified_written {α : Type} {build : String → Members → α} {idOf : α → String}
    {members : α → Members} {Valid : α → Prop} (hid : ∀ id members, idOf (build id members) = id)
    (hvalid : ∀ {id}, Text.Trimmed id → ∀ members, Valid (build id members))
    (hread : ∀ r, Valid r → identify? (.obj (members r)) = some (idOf r, members r) ∧
      build (idOf r) (members r) = r) (j : Json) :
    (identified (.arr (((identified j).map fun (id, members) => build id members).map
        fun r => .obj (members r)))).map (fun (id, members) => build id members) =
      (identified j).map fun (id, members) => build id members := by
  have h := mapM_identified_written
    (fun r hr => ⟨(hread r hr).1, congrArg Except.ok (hread r hr).2⟩) (decoded_map j hid hvalid)
  exact Except.ok.inj (List.mapM_pure.symm.trans h)

theorem threads_written (j : Json) :
    threads (.arr ((threads j).map fun t => .obj t.members)) = threads j :=
  map_identified_written (fun _ _ => rfl) (fun h members => valid_thread h members)
    (fun _ h => ⟨identify?_obj rfl h.id, thread_members h⟩) j

theorem spaces_written (j : Json) :
    spaces (.arr ((spaces j).map fun s => .obj s.members)) = spaces j :=
  map_identified_written (fun _ _ => rfl) (fun h members => valid_space h members)
    (fun _ h => ⟨identify?_obj rfl h.id, space_members h⟩) j

theorem collections_written (j : Json) :
    collections (.arr ((collections j).map fun c => .obj c.members)) = collections j :=
  map_identified_written (fun _ _ => rfl) (fun h members => valid_collection h members)
    (fun _ h => ⟨identify?_obj rfl h.id, collection_members h⟩) j

theorem files_written (j : Json) :
    files (.arr ((files j).map fun f => .obj f.members)) = files j :=
  map_identified_written (fun _ _ => rfl) (fun h members => valid_file h members)
    (fun _ h => ⟨identify?_obj rfl h.id, file_members h⟩) j

theorem tasks_written {j : Json} {ts : List Task} (h : tasks j = .ok ts) :
    tasks (.arr (ts.map fun t => .obj t.members)) = .ok ts := by
  have hdecoded : Decoded j task Task.id
      (fun t => t.Valid ∧ ∃ hour minutes, TimeOfDay t.time hour minutes) ts :=
    decoded_of_mapM id_of_task (fun hid ht =>
      ⟨valid_of_task hid _ ht, exists_timeOfDay (fields_of_task ht).2.1⟩) h
  refine mapM_identified_written ?_ hdecoded
  rintro t ⟨hvalid, hour, minutes, htime⟩
  exact ⟨identify?_obj rfl hvalid.id, task_members hvalid htime⟩

/-! ## 4. Decoding twice -/

/-- **Decoding gives a normal form.** Whatever is stored, what is decoded of it and written back is
decoded as it is: the records of every kind, in their order, the maps, and the lists of texts. -/
theorem decode_written (j : Json) :
    threads (.arr ((threads j).map fun t => .obj t.members)) = threads j ∧
    spaces (.arr ((spaces j).map fun s => .obj s.members)) = spaces j ∧
    collections (.arr ((collections j).map fun c => .obj c.members)) = collections j ∧
    files (.arr ((files j).map fun f => .obj f.members)) = files j ∧
    (∀ ts, tasks j = .ok ts → tasks (.arr (ts.map fun t => .obj t.members)) = .ok ts) ∧
    notes (storedMap .str (notes j)) = notes j ∧
    spaceTags (storedMap Json.texts (spaceTags j)) = spaceTags j ∧
    selectedIds (Json.texts (selectedIds j)) = selectedIds j ∧
    ∀ limit, 0 ≤ limit → recent limit (Json.texts (recent limit j)) = recent limit j :=
  ⟨threads_written j, spaces_written j, collections_written j, files_written j,
    fun _ => tasks_written, notes_written j, spaceTags_written j, textList_written j,
    fun _ h => recent_written h j⟩

/-- A task whose hour has one digit and whose minutes are of another script, among texts with blanks
around them and a repeat. -/
def untidy : Json :=
  .arr [.obj [("id", .str " a "), ("time", .str "7:٣٠"), ("dayOfWeek", .int 8),
      ("lastRun", .str "2024-02-29T12:00+01:00")],
    .str " plan ", .str "plan", .int 3, .str "notes", .str "rest"]

theorem decode_written_untidy :
    ∃ ts, tasks untidy = .ok ts ∧ tasks (.arr (ts.map fun t => .obj t.members)) = .ok ts ∧
      ts.map (fun t => (t.id, t.time, t.lastRun)) =
        [("a", "07:٣٠", some "2024-02-29T11:00:00.000Z")] ∧
      recent 2 (Json.texts (recent 2 untidy)) = recent 2 untidy ∧
      recent 2 untidy = ["plan", "notes"] := by
  obtain ⟨-, -, -, -, hagain, -, -, -, hrecent⟩ := decode_written untidy
  have hread : (tasks untidy).map (List.map fun t => (t.id, t.time, t.lastRun)) =
      .ok [("a", "07:٣٠", some "2024-02-29T11:00:00.000Z")] := by decide +kernel
  cases hts : tasks untidy with
  | error e =>
    rw [hts] at hread
    cases hread
  | ok ts =>
    rw [hts] at hread
    exact ⟨ts, rfl, hagain ts hts, Except.ok.inj hread, hrecent 2 (by decide), by decide +kernel⟩

end Decode

end Recall
