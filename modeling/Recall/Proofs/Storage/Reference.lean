/-
Recall.Proofs.Storage.Reference — references between the records of an export.

Threads and tasks refer to a space by its id, and tasks to the thread of their last run. In an export
a reference is the same text as the id of an entry (`Names`). Reading drops the outer blanks of ids and
keeps those of references. So what an entry refers to is among the records that are read, under the
trimmed text, and the reference is its id if and only if there were no blanks to drop (`Referred`).

The rest follows for searching, where the id of a space finds the records that refer to it
(`Recall.Proofs.Engine.Space`): with blanks in the export the space is found without them
(`BelongsTo`, `references_padded`).
-/
import Recall.Proofs.Decode.Records
import Recall.Proofs.Engine.Space

namespace Recall

namespace Decode

/-! ## 1. Ids that entries are stored with -/

/-- The text is the id of a usable entry, as it is stored. -/
def Names (j : Json) (s : String) : Prop :=
  ∃ members, .obj members ∈ entries j ∧ Json.field members "id" = .str s ∧ Text.isBlank s = false

theorem Names.isBlank_eq {j : Json} {s : String} (h : Names j s) : Text.isBlank s = false := by
  obtain ⟨members, -, -, hblank⟩ := h
  exact hblank

theorem exists_firstWith {j : Json} {s : String} (h : Names j s) :
    ∃ members, FirstWith j (Text.trim s) members := by
  obtain ⟨members, hentry, hid, hblank⟩ := h
  have husable : usableId? (.obj members) = some (Text.trim s) := by
    rw [usableId?]
    simp [hid, hblank]
  have hin : Text.trim s ∈ (identified j).map Prod.fst := by
    rw [map_fst_identified, Text.mem_distinct, List.mem_filterMap]
    exact ⟨_, hentry, husable⟩
  obtain ⟨⟨id, first⟩, hfirst, rfl⟩ := List.mem_map.mp hin
  exact ⟨first, mem_identified_iff.mp hfirst⟩

section FirstWith

variable {j : Json} {id : String} {members : Members}

theorem mem_threads (h : FirstWith j id members) : thread id members ∈ threads j :=
  List.mem_map_of_mem (f := fun p => thread p.1 p.2) (mem_identified_iff.mpr h)

theorem mem_spaces (h : FirstWith j id members) : space id members ∈ spaces j :=
  List.mem_map_of_mem (f := fun p => space p.1 p.2) (mem_identified_iff.mpr h)

theorem exists_mem_tasks {ts : List Task} (hts : tasks j = .ok ts) (h : FirstWith j id members) :
    ∃ t ∈ ts, task id members = .ok t := by
  obtain ⟨t, ht, hbuild⟩ :=
    exists_of_mem_forall₂ (mapM_eq_ok_iff.mp hts).flip (mem_identified_iff.mpr h)
  exact ⟨t, ht, hbuild⟩

end FirstWith

end Decode

namespace Storage

open Decode

/-! ## 2. References -/

/-- What becomes of a text that an entry refers by and that names another: the record named has the
trimmed text for its id, the reference is the text as it is stored, so it is the id if and only if
the text is trimmed. -/
structure Referred (s id : String) (kept : Option String) : Prop where
  trimmed : id = Text.trim s
  unchanged : kept = some s
  same_iff : kept = some id ↔ Text.trim s = s

theorem referred {s : String} : Referred s (Text.trim s) (some s) where
  trimmed := rfl
  unchanged := rfl
  same_iff := by rw [Option.some.injEq, eq_comm]

/-- A record that refers to a space by a text, in a dataset: a search for the id of the space shows
the space, and shows the record if and only if the text is trimmed. -/
structure BelongsTo (d : Dataset) (s : String) (sp : Space) (r : Record) : Prop extends
    Referred s sp.id r.spaceId where
  shows : ∀ settings limit, d.FitsIn limit →
    (Engine.search settings d (.forSpace sp.id limit)).Shows (.space sp)
  shows_iff : ∀ settings limit, d.FitsIn limit →
    ((Engine.search settings d (.forSpace sp.id limit)).Shows r ↔ Text.trim s = s)

/-- A record that refers to a space of the dataset by a text that is not blank belongs to it. -/
theorem belongsTo {d : Dataset} {s : String} {sp : Space} {r : Record}
    (hblank : Text.isBlank s = false) (hsp : sp ∈ d.spaces) (hid : sp.id = Text.trim s)
    (hr : r ∈ d.records r.kind) (hkind : r.kind.supports .space = true)
    (hspace : r.spaceId = some s) : BelongsTo d s sp r := by
  have htrimmed : Text.Trimmed sp.id := hid ▸ Text.trimmed_trim hblank
  refine { toReferred := by rw [hid, hspace]; exact referred, shows := ?_, shows_iff := ?_ }
  · intro settings limit hroom
    rw [Engine.shows_forSpace_iff htrimmed hroom]
    exact ⟨List.mem_map_of_mem hsp, rfl, sp.id, rfl, rfl⟩
  · intro settings limit hroom
    rw [Engine.shows_forSpace_iff htrimmed hroom, hspace, hid]
    simp only [hr, hkind, true_and, Option.some.injEq, exists_eq_left']
    rw [eq_comm, Text.lower_trim_eq_iff]

/-! ## 3. Reading an export -/

theorem mapError_eq_ok_iff {α β ε : Type} {x : Except ε α} {f : ε → β} {a : α} :
    x.mapError f = .ok a ↔ x = .ok a := by
  cases x <;> simp [Except.mapError]

/-- The records of an export are those of the values under their keys. -/
theorem records_of_dataset {depth : Nat} {blobs : List (String × Stored)} {now : String}
    {d : Dataset} (h : dataset depth blobs now = .ok d) : ∃ jt js jk,
      read depth blobs threadsKey = .ok jt ∧ read depth blobs spacesKey = .ok js ∧
        read depth blobs tasksKey = .ok jk ∧
        d.threads = threads jt ∧ d.spaces = spaces js ∧ tasks jk = .ok d.tasks := by
  rw [dataset] at h
  obtain ⟨saved, -, h⟩ := exists_of_bind_eq_ok h
  obtain ⟨jt, hjt, h⟩ := exists_of_bind_eq_ok h
  obtain ⟨js, hjs, h⟩ := exists_of_bind_eq_ok h
  obtain ⟨jc, -, h⟩ := exists_of_bind_eq_ok h
  obtain ⟨jf, -, h⟩ := exists_of_bind_eq_ok h
  obtain ⟨jk, hjk, h⟩ := exists_of_bind_eq_ok h
  obtain ⟨ts, hts, h⟩ := exists_of_bind_eq_ok h
  obtain ⟨jn, -, h⟩ := exists_of_bind_eq_ok h
  obtain ⟨jg, -, h⟩ := exists_of_bind_eq_ok h
  obtain ⟨jr, -, h⟩ := exists_of_bind_eq_ok h
  obtain ⟨jv, -, h⟩ := exists_of_bind_eq_ok h
  cases h
  exact ⟨jt, js, jk, hjt, hjs, hjk, rfl, rfl, mapError_eq_ok_iff.mp hts⟩

/-- **What becomes of references.** A thread or a task that refers to a space of the export belongs to
the space in the dataset, and a task refers to the thread of its last run. -/
theorem references_kept {depth : Nat} {blobs : List (String × Stored)} {now : String}
    {d : Dataset} (h : dataset depth blobs now = .ok d) : ∃ jt js jk,
      read depth blobs threadsKey = .ok jt ∧ read depth blobs spacesKey = .ok js ∧
        read depth blobs tasksKey = .ok jk ∧
      (∀ id members s, FirstWith jt id members → Json.field members "spaceId" = .str s →
        Names js s → ∃ t ∈ d.threads, t.id = id ∧ ∃ sp ∈ d.spaces, BelongsTo d s sp (.thread t)) ∧
      (∀ id members s, FirstWith jk id members → Json.field members "spaceId" = .str s →
        Names js s → ∃ k ∈ d.tasks, k.id = id ∧ ∃ sp ∈ d.spaces, BelongsTo d s sp (.task k)) ∧
      ∀ id members s, FirstWith jk id members → Json.field members "lastThreadId" = .str s →
        Names jt s → ∃ k ∈ d.tasks, k.id = id ∧ ∃ t ∈ d.threads, Referred s t.id k.lastThreadId := by
  obtain ⟨jt, js, jk, hjt, hjs, hjk, hthreads, hspaces, htasks⟩ := records_of_dataset h
  have hspace : ∀ s, Names js s → ∃ sp ∈ d.spaces, sp.id = Text.trim s := by
    intro s hs
    obtain ⟨members, hfirst⟩ := exists_firstWith hs
    exact ⟨_, hspaces ▸ mem_spaces hfirst, rfl⟩
  refine ⟨jt, js, jk, hjt, hjs, hjk, ?_, ?_, ?_⟩
  · intro id members s hfirst hfield hs
    have hin : thread id members ∈ d.threads := hthreads ▸ mem_threads hfirst
    have hkept : (thread id members).spaceId = some s := by
      rw [← text?_str hs.isBlank_eq, ← hfield]
      rfl
    obtain ⟨sp, hsp, hid⟩ := hspace s hs
    exact ⟨_, hin, rfl, sp, hsp,
      belongsTo hs.isBlank_eq hsp hid (List.mem_map_of_mem hin) rfl hkept⟩
  · intro id members s hfirst hfield hs
    obtain ⟨k, hin, hbuild⟩ := exists_mem_tasks htasks hfirst
    obtain ⟨hk, -, hread, -⟩ := fields_of_task hbuild
    have hkept : k.spaceId = some s := by
      rw [hread, hfield, text?_str hs.isBlank_eq]
    obtain ⟨sp, hsp, hid⟩ := hspace s hs
    exact ⟨k, hin, hk, sp, hsp,
      belongsTo hs.isBlank_eq hsp hid (List.mem_map_of_mem hin) rfl hkept⟩
  · intro id members s hfirst hfield hs
    obtain ⟨k, hin, hbuild⟩ := exists_mem_tasks htasks hfirst
    obtain ⟨hk, -, -, hread⟩ := fields_of_task hbuild
    obtain ⟨first, hthread⟩ := exists_firstWith hs
    refine ⟨k, hin, hk, _, hthreads ▸ mem_threads hthread, ?_⟩
    rw [hread, hfield, text?_str hs.isBlank_eq]
    exact referred

/-- An export in which one thread and one task refer to ids with blanks around them, and another
thread to an id without. -/
def padded : List (String × Stored) :=
  [(spacesKey, .value spaces), (threadsKey, .value threads), (tasksKey, .value tasks)]
where
  /-- Its spaces. -/
  spaces : Json := .arr [.obj [("id", .str " s ")], .obj [("id", .str "r")]]
  /-- Its threads. -/
  threads : Json := .arr [.obj [("id", .str " t "), ("spaceId", .str " s ")],
    .obj [("id", .str "u"), ("spaceId", .str "r")]]
  /-- Its tasks. -/
  tasks : Json :=
    .arr [.obj [("id", .str "k"), ("spaceId", .str " s "), ("lastThreadId", .str " t ")]]

theorem names_padded :
    Names padded.spaces " s " ∧ Names padded.spaces "r" ∧ Names padded.threads " t " :=
  ⟨⟨_, List.mem_cons_self, rfl, by decide⟩,
    ⟨_, List.mem_cons_of_mem _ List.mem_cons_self, rfl, by decide⟩,
    ⟨_, List.mem_cons_self, rfl, by decide⟩⟩

theorem exists_dataset_padded : ∃ d, dataset 994 padded Timestamp.epochText = .ok d := by
  have hread : (dataset 994 padded Timestamp.epochText).isOk = true := by decide +kernel
  cases hd : dataset 994 padded Timestamp.epochText with
  | error e =>
    rw [hd] at hread
    cases hread
  | ok d => exact ⟨d, rfl⟩

theorem references_kept_padded : ∃ d, dataset 994 padded Timestamp.epochText = .ok d ∧
    (∃ t ∈ d.threads, t.id = "u" ∧ ∃ sp ∈ d.spaces, BelongsTo d "r" sp (.thread t)) ∧
    (∃ k ∈ d.tasks, k.id = "k" ∧ ∃ sp ∈ d.spaces, BelongsTo d " s " sp (.task k)) ∧
    ∃ k ∈ d.tasks, k.id = "k" ∧ ∃ t ∈ d.threads, Referred " t " t.id k.lastThreadId := by
  obtain ⟨d, hd⟩ := exists_dataset_padded
  obtain ⟨jt, js, jk, hjt, hjs, hjk, hthread, htask, hlast⟩ := references_kept hd
  obtain rfl : padded.threads = jt := Except.ok.inj hjt
  obtain rfl : padded.spaces = js := Except.ok.inj hjs
  obtain rfl : padded.tasks = jk := Except.ok.inj hjk
  have hu : FirstWith padded.threads "u" [("id", .str "u"), ("spaceId", .str "r")] :=
    ⟨[_], [], rfl, by decide, by decide⟩
  have hk : FirstWith padded.tasks "k"
      [("id", .str "k"), ("spaceId", .str " s "), ("lastThreadId", .str " t ")] :=
    ⟨[], [], rfl, by decide, by decide⟩
  obtain ⟨hs, hr, ht⟩ := names_padded
  exact ⟨d, hd, hthread _ _ _ hu rfl hr, htask _ _ _ hk rfl hs, hlast _ _ _ hk rfl ht⟩

/-- With blanks around it in the export, no reference is the id of what it refers to. -/
theorem references_padded : Names padded.spaces " s " ∧ Names padded.threads " t " ∧
    ∃ d, dataset 994 padded Timestamp.epochText = .ok d ∧
      d.spaces.map Space.id = ["s", "r"] ∧
      d.threads.map (fun t => (t.id, t.spaceId)) = [("t", some " s "), ("u", some "r")] ∧
      d.tasks.map (fun k => (k.spaceId, k.lastThreadId)) = [(some " s ", some " t ")] := by
  obtain ⟨d, hd⟩ := exists_dataset_padded
  obtain ⟨jt, js, jk, hjt, hjs, hjk, hthreads, hspaces, htasks⟩ := records_of_dataset hd
  obtain rfl : padded.threads = jt := Except.ok.inj hjt
  obtain rfl : padded.spaces = js := Except.ok.inj hjs
  obtain rfl : padded.tasks = jk := Except.ok.inj hjk
  have hkept : (Decode.tasks padded.tasks).map (List.map fun k => (k.spaceId, k.lastThreadId)) =
      .ok [(some " s ", some " t ")] := by decide +kernel
  rw [htasks] at hkept
  refine ⟨names_padded.1, names_padded.2.2, d, hd, ?_, ?_, Except.ok.inj hkept⟩
  · rw [hspaces]
    decide +kernel
  · rw [hthreads]
    decide +kernel

end Storage

end Recall
