/-
Recall.Proofs.Decode.Entries — which entries of a stored list become records.

An entry can become a record when it is an object whose `id` is a text that is not blank; its id is
that text without its outer blanks (`usableId?`). Ids that differ only in these blanks are the same
id, and the first entry with an id is the one that counts (`FirstWith`). What is read of a stored
list are exactly these entries (`mem_identified_iff`), in order, each id once
(`map_fst_identified`).

`Decoded` says what it is to be the records of a stored list: the right ids in the right order, each
record built from the first entry with its id, and every record valid. A list that is built entry by
entry is such a list (`decoded_of_mapM`), for every kind of record.
-/
import Mathlib.Data.List.Forall2
import Recall.Decode.Records
import Recall.Proofs.Decode.Coerce

namespace Recall

namespace Decode

/-! ## 1. Ids -/

/-- The entries of a stored list; nothing else has any. -/
def entries : Json → List Json
  | .arr items => items
  | _ => []

/-- The id of an entry: the text under `id` of an object, without its outer blanks, if there is
anything else in it. -/
def usableId? : Json → Option String
  | .obj members =>
    match Json.field members "id" with
    | .str s => if Text.isBlank s then none else some (Text.trim s)
    | _ => none
  | _ => none

/-- The first entry with an id is an object with these members. -/
def FirstWith (j : Json) (id : String) (members : Members) : Prop :=
  ∃ before after, entries j = before ++ .obj members :: after ∧
    usableId? (.obj members) = some id ∧ ∀ e ∈ before, usableId? e ≠ some id

theorem usableId?_obj (members : Members) :
    usableId? (.obj members) = trimmed? (Json.field members "id") := by
  rw [usableId?, trimmed?, text?]
  cases Json.field members "id" with
  | str s => cases h : Text.isBlank s <;> simp [Json.str?, Option.filter, h]
  | _ => rfl

theorem map_fst_identify? (e : Json) : (identify? e).map Prod.fst = usableId? e := by
  cases e with
  | obj members => simp [identify?, usableId?_obj, Function.comp_def]
  | _ => rfl

theorem identify?_eq_some_iff {e : Json} {id : String} {members : Members} :
    identify? e = some (id, members) ↔ e = .obj members ∧ usableId? e = some id := by
  cases e with
  | obj m =>
    simp only [identify?, usableId?_obj, Option.map_eq_some_iff, Prod.mk.injEq, Json.obj.injEq]
    constructor
    · rintro ⟨i, hi, rfl, rfl⟩
      exact ⟨rfl, hi⟩
    · rintro ⟨rfl, hi⟩
      exact ⟨id, hi, rfl, rfl⟩
  | _ => simp [identify?]

/-! ## 2. First entries -/

section FirstOfKey

variable {α : Type}

theorem map_fst_firstOfKey (l : List (String × α)) :
    (firstOfKey l).map Prod.fst = Text.distinct (l.map Prod.fst) := by
  induction l with
  | nil => rfl
  | cons a r ih =>
    rw [firstOfKey, List.map_cons, List.map_cons, Text.distinct, ← ih, List.filter_map]
    rfl

/-- The pairs that are kept are those before which no pair has their key. -/
theorem mem_firstOfKey_iff {a : String × α} {l : List (String × α)} :
    a ∈ firstOfKey l ↔ ∃ before after, l = before ++ a :: after ∧ ∀ b ∈ before, b.1 ≠ a.1 := by
  induction l with
  | nil => simp [firstOfKey]
  | cons c r ih =>
    rw [firstOfKey, List.mem_cons, List.mem_filter, ih]
    constructor
    · rintro (rfl | ⟨⟨before, after, rfl, hbefore⟩, hne⟩)
      · exact ⟨[], r, rfl, by simp⟩
      · refine ⟨c :: before, after, rfl, ?_⟩
        rw [List.forall_mem_cons]
        exact ⟨Ne.symm (bne_iff_ne.mp hne), hbefore⟩
    · rintro ⟨before, after, heq, hbefore⟩
      cases before with
      | nil =>
        simp only [List.nil_append, List.cons.injEq] at heq
        exact Or.inl heq.1.symm
      | cons d rest =>
        simp only [List.cons_append, List.cons.injEq] at heq
        obtain ⟨rfl, rfl⟩ := heq
        rw [List.forall_mem_cons] at hbefore
        exact Or.inr ⟨⟨rest, after, rfl, hbefore.2⟩, bne_iff_ne.mpr (Ne.symm hbefore.1)⟩

end FirstOfKey

theorem identified_eq (j : Json) : identified j = firstOfKey ((entries j).filterMap identify?) := by
  cases j <;> rfl

/-- The ids that are read are those of the entries, each where it occurs first. -/
theorem map_fst_identified (j : Json) :
    (identified j).map Prod.fst = Text.distinct ((entries j).filterMap usableId?) := by
  rw [identified_eq, map_fst_firstOfKey, List.map_filterMap]
  simp only [map_fst_identify?]

/-- What is read under an id are the members of the first entry with that id. -/
theorem mem_identified_iff {j : Json} {id : String} {members : Members} :
    (id, members) ∈ identified j ↔ FirstWith j id members := by
  rw [identified_eq, mem_firstOfKey_iff]
  have hkey : ∀ {l : List Json}, (∀ b ∈ l.filterMap identify?, b.1 ≠ id) ↔
      ∀ e ∈ l, usableId? e ≠ some id := by
    intro l
    simp only [← map_fst_identify?, List.mem_filterMap]
    constructor
    · intro h e he hid
      obtain ⟨b, hb, heq⟩ := Option.map_eq_some_iff.mp hid
      exact h b ⟨e, he, hb⟩ heq
    · rintro h b ⟨e, he, hb⟩ heq
      exact h e he (by rw [hb, Option.map_some, heq])
  constructor
  · rintro ⟨before, after, heq, hbefore⟩
    obtain ⟨l, m, hl, rfl, hm⟩ := List.filterMap_eq_append_iff.mp heq
    obtain ⟨skipped, e, rest, rfl, hskipped, he, -⟩ := List.filterMap_eq_cons_iff.mp hm
    obtain ⟨rfl, hid⟩ := identify?_eq_some_iff.mp he
    refine ⟨l ++ skipped, rest, by rw [hl, List.append_assoc], hid, ?_⟩
    rw [List.forall_mem_append]
    refine ⟨hkey.mp hbefore, hkey.mp ?_⟩
    rw [List.filterMap_eq_nil_iff.mpr hskipped]
    simp
  · rintro ⟨before, after, heq, hid, hbefore⟩
    refine ⟨before.filterMap identify?, after.filterMap identify?, ?_, hkey.mpr hbefore⟩
    rw [heq, List.filterMap_append,
      List.filterMap_cons_some (identify?_eq_some_iff.mpr ⟨rfl, hid⟩)]

theorem trimmed_of_firstWith {j : Json} {id : String} {members : Members}
    (h : FirstWith j id members) : Text.Trimmed id := by
  obtain ⟨-, -, -, hid, -⟩ := h
  rw [usableId?_obj] at hid
  exact trimmed_of_trimmed? hid

/-! ## 3. Records -/

theorem exists_of_bind_eq_ok {α β ε : Type} {x : Except ε α} {f : α → Except ε β} {b : β}
    (h : x >>= f = .ok b) : ∃ a, x = .ok a ∧ f a = .ok b := by
  cases x with
  | error e => cases h
  | ok a => exact ⟨a, rfl, h⟩

section MapM

variable {α β ε : Type} {f : α → Except ε β}

theorem mapM_eq_ok_iff {l : List α} {r : List β} :
    l.mapM f = .ok r ↔ List.Forall₂ (fun a b => f a = .ok b) l r := by
  induction l generalizing r with
  | nil =>
    rw [List.mapM_nil, List.forall₂_nil_left_iff]
    constructor
    · rintro ⟨⟩
      rfl
    · rintro rfl
      rfl
  | cons a l ih =>
    rw [List.mapM_cons, List.forall₂_cons_left_iff]
    constructor
    · intro h
      cases ha : f a with
      | error e =>
        rw [ha] at h
        cases h
      | ok b =>
        cases hl : l.mapM f with
        | error e =>
          rw [ha, hl] at h
          cases h
        | ok bs =>
          rw [ha, hl] at h
          cases h
          exact ⟨b, bs, rfl, ih.mp hl, rfl⟩
    · rintro ⟨b, bs, ha, hl, rfl⟩
      rw [ha, ih.mpr hl]
      rfl

theorem exists_of_mem_forall₂ {R : α → β → Prop} {l : List α} {r : List β} (h : List.Forall₂ R l r)
    {b : β} (hb : b ∈ r) : ∃ a ∈ l, R a b := by
  induction h with
  | nil => cases hb
  | cons hab _ ih =>
    rcases List.mem_cons.mp hb with rfl | hb
    · exact ⟨_, List.mem_cons_self, hab⟩
    · obtain ⟨a, ha, hr⟩ := ih hb
      exact ⟨a, List.mem_cons_of_mem _ ha, hr⟩

/-- Reading a list fails where reading one of its elements fails. -/
theorem exists_of_mapM_eq_error {l : List α} {e : ε} (h : l.mapM f = .error e) :
    ∃ a ∈ l, f a = .error e := by
  induction l with
  | nil => cases h
  | cons a l ih =>
    rw [List.mapM_cons] at h
    cases ha : f a with
    | error e' =>
      rw [ha] at h
      cases h
      exact ⟨a, List.mem_cons_self, ha⟩
    | ok b =>
      cases hl : l.mapM f with
      | error e' =>
        rw [ha, hl] at h
        cases h
        obtain ⟨c, hc, hfail⟩ := ih hl
        exact ⟨c, List.mem_cons_of_mem a hc, hfail⟩
      | ok bs =>
        rw [ha, hl] at h
        cases h

end MapM

/-- The records of a stored list: their ids are those of the entries, each once and where it occurs
first; each record is built from the first entry with its id; and every record is valid. -/
structure Decoded {α : Type} (j : Json) (build : String → Members → Except DecodeError α)
    (idOf : α → String) (Valid : α → Prop) (records : List α) : Prop where
  ids : records.map idOf = Text.distinct ((entries j).filterMap usableId?)
  nodup : (records.map idOf).Nodup
  first : ∀ r ∈ records, ∃ members, FirstWith j (idOf r) members ∧ build (idOf r) members = .ok r
  valid : ∀ r ∈ records, Valid r

/-- A list that is built entry by entry has the records of the stored list, if what is built keeps the
id that it is built with and is valid under an id that is trimmed. -/
theorem decoded_of_mapM {α : Type} {j : Json} {build : String → Members → Except DecodeError α}
    {idOf : α → String} {Valid : α → Prop} {records : List α}
    (hid : ∀ {id members r}, build id members = .ok r → idOf r = id)
    (hvalid : ∀ {id members r}, Text.Trimmed id → build id members = .ok r → Valid r)
    (h : (identified j).mapM (fun (id, members) => build id members) = .ok records) :
    Decoded j build idOf Valid records := by
  have hbuilt := mapM_eq_ok_iff.mp h
  have hfirst : ∀ r ∈ records, ∃ members, FirstWith j (idOf r) members ∧
      build (idOf r) members = .ok r := by
    intro r hr
    obtain ⟨⟨id, members⟩, hin, hr⟩ := exists_of_mem_forall₂ hbuilt hr
    obtain rfl := hid hr
    exact ⟨members, mem_identified_iff.mp hin, hr⟩
  have hids : records.map idOf = Text.distinct ((entries j).filterMap usableId?) := by
    rw [← map_fst_identified, ← List.forall₂_eq_eq_eq, List.forall₂_map_left_iff,
      List.forall₂_map_right_iff]
    exact (hbuilt.imp fun _ _ hr => hid hr).flip
  refine ⟨hids, ?_, hfirst, ?_⟩
  · rw [hids]
    exact Text.nodup_distinct _
  · intro r hr
    obtain ⟨members, hin, hbuild⟩ := hfirst r hr
    exact hvalid (trimmed_of_firstWith hin) hbuild

end Decode

end Recall
