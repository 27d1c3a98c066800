/-
Recall.Proofs.Saved.Stored — saved searches are read back.

Reading brings every field of an entry into a form of its own: ids and queries are trimmed, settings
are words of their vocabularies, dates are in the written form. A search whose fields are in these
forms is *settled* (`Settled`); reading gives nothing else (`settled_of_mem_decode`), and every
field of a settled search but its name is read as it was stored (`ofStored?_entry`).

Names come from two sources. A stored name is collapsed, and a name that is made up for want of one
is the query as it is, with all the blanks that stand in it. So searches with collapsed names are read
back as they are (`decode_encode`), but what has been read may have a name that the next reading
collapses. Then it has reached its end (`decode_encode_decode`): nothing but names has changed, and
no further reading changes anything.
-/
import Recall.Proofs.Decode.Coerce
import Recall.Saved.Stored

namespace Recall

/-! ## 1. Fields -/

namespace Saved

theorem wordOr_str {vocabulary : List String} {fallback v : String} (h : v ∈ vocabulary) :
    wordOr vocabulary fallback (.str v) = v := by
  simp [wordOr, Json.str?, Option.filter, h]

theorem wordOr_mem {vocabulary : List String} {fallback : String} (h : fallback ∈ vocabulary)
    (j : Json) : wordOr vocabulary fallback j ∈ vocabulary :=
  Decode.choice_mem h j

theorem filterOf_mem (j : Json) : filterOf j ∈ filters := wordOr_mem (by decide) j

theorem sortOf_mem (j : Json) : sortOf j ∈ sortOrders := wordOr_mem (by decide) j

theorem windowOf_mem (j : Json) : windowOf j ∈ windows := wordOr_mem (by decide) j

theorem limitOf_int {n : Int} (h : n ∈ limits) : limitOf (.int n) = n := by
  rw [limitOf, if_pos (List.contains_iff_mem.mpr h)]

theorem limitOf_mem (j : Json) : limitOf j ∈ limits := by
  fun_cases limitOf j with
  | case1 n h => exact List.contains_iff_mem.mp h
  | case2 => decide
  | case3 => decide

/-! ## 2. Names -/

theorem cleanName_cleanName (name : String) : cleanName (cleanName name) = cleanName name := by
  apply String.toList_injective
  simp [cleanName, Chars.collapse_collapse]

theorem isBlank_cleanName (name : String) : Text.isBlank (cleanName name) = Text.isBlank name := by
  rw [Text.isBlank, cleanName, Text.toList_collapse, Chars.isBlankText_collapse, Text.isBlank]

/-- The words that a name can be made of have no blanks. -/
theorem isWord_of_mem_settings : ∀ w ∈ filters ++ windows ++ sortOrders ++ ["verbatim"],
    Chars.IsWord w.toList := by
  decide +kernel

section Settings

variable {filter sortBy window : String} (hf : filter ∈ filters) (hs : sortBy ∈ sortOrders)
  (hw : window ∈ windows)

include hf hs hw

/-- A name that is made from settings is made of words with single spaces between them. -/
theorem exists_words_nameOfSettings (verbatim : Bool) :
    ∃ ws : List (List Char), ws ≠ [] ∧ (∀ w ∈ ws, Chars.IsWord w) ∧
      (nameOfSettings filter sortBy window verbatim).toList = Chars.join [' '] ws := by
  rw [nameOfSettings]
  generalize hparts : (if filter = "all" then [] else [filter]) ++ _ ++ _ ++ _ = parts
  cases parts with
  | nil =>
    have hdefault : "Saved search".toList = Chars.join [' '] ["Saved".toList, "search".toList] := by
      decide
    exact ⟨_, List.cons_ne_nil _ _, by decide, hdefault⟩
  | cons part rest =>
    have hword : ∀ w ∈ part :: rest, Chars.IsWord w.toList := by
      intro w hmem
      refine isWord_of_mem_settings w ?_
      simp only [← hparts, List.mem_append, List.mem_ite_nil_left, List.mem_ite_nil_right,
        List.mem_singleton] at hmem ⊢
      rcases hmem with ((⟨-, rfl⟩ | ⟨-, rfl⟩) | ⟨-, rfl⟩) | ⟨-, rfl⟩
      · exact Or.inl (Or.inl (Or.inl hf))
      · exact Or.inl (Or.inl (Or.inr hw))
      · exact Or.inl (Or.inr hs)
      · exact Or.inr rfl
    -- The dot between two words is a word of its own, with a space on either side.
    have hjoin : (Text.join " · " (part :: rest)).toList =
        Chars.join [' '] (((part :: rest).map String.toList).intersperse ['·']) := by
      rw [Text.toList_join, Chars.join_intersperse]
      rfl
    refine ⟨_, ?_, Chars.forall_mem_intersperse (by decide) ?_, hjoin⟩
    · cases rest <;> exact List.cons_ne_nil _ _
    · simpa using hword

theorem isBlank_nameOfSettings (verbatim : Bool) :
    Text.isBlank (nameOfSettings filter sortBy window verbatim) = false := by
  obtain ⟨ws, hne, hwords, htext⟩ := exists_words_nameOfSettings hf hs hw verbatim
  refine Bool.eq_false_iff.mpr fun hblank => hne ?_
  rw [Text.isBlank, htext, ← Chars.words_eq_nil_iff, Chars.words_join hwords] at hblank
  exact hblank

theorem cleanName_nameOfSettings (verbatim : Bool) :
    cleanName (nameOfSettings filter sortBy window verbatim) =
      nameOfSettings filter sortBy window verbatim := by
  obtain ⟨ws, -, hwords, htext⟩ := exists_words_nameOfSettings hf hs hw verbatim
  apply String.toList_injective
  rw [cleanName, Text.toList_collapse, htext, Chars.collapse, Chars.words_join hwords]

/-- A name that is made up is not blank. -/
theorem isBlank_defaultName (query : String) (verbatim : Bool) :
    Text.isBlank (defaultName query filter sortBy window verbatim) = false := by
  rw [defaultName]
  split
  · exact isBlank_nameOfSettings hf hs hw verbatim
  · rename_i hne
    split
    · have hdots : ['.', '.', '.'].all Chars.isBlank = false := by decide
      rw [Text.isBlank, String.toList_ofList, Chars.isBlankText, List.all_append, hdots,
        Bool.and_false]
    · have hquery : Text.isBlank query = false := by
        refine Bool.eq_false_iff.mpr fun hblank => hne ?_
        rw [Chars.trim_eq_nil_iff.mpr hblank, List.isEmpty_nil]
      exact Text.isBlank_of_trimmed (Text.trimmed_trim hquery)

/-- Only a query can bring other blanks than single spaces into a name that is made up. -/
theorem cleanName_defaultName {query : String} (hquery : Text.isBlank query = true)
    (verbatim : Bool) :
    cleanName (defaultName query filter sortBy window verbatim) =
      defaultName query filter sortBy window verbatim := by
  have hempty : (Chars.trim query.toList).isEmpty = true := by
    rw [Chars.trim_eq_nil_iff.mpr hquery, List.isEmpty_nil]
  rw [defaultName, if_pos hempty]
  exact cleanName_nameOfSettings hf hs hw verbatim

end Settings

/-- The name of an entry is not blank, whether it was given or made up. -/
theorem isBlank_nameOr (j : Json) {made : String} (h : Text.isBlank made = false) :
    Text.isBlank (((Decode.text? j).map cleanName).getD made) = false := by
  cases hname : Decode.text? j with
  | none => exact h
  | some name => exact (isBlank_cleanName name).trans (Decode.isBlank_of_text? hname)

theorem cleanName_nameOr (j : Json) (made : String) :
    cleanName (((Decode.text? j).map cleanName).getD made) =
        ((Decode.text? j).map cleanName).getD made ∨
      ((Decode.text? j).map cleanName).getD made = made := by
  cases Decode.text? j with
  | none => exact Or.inr rfl
  | some name => exact Or.inl (cleanName_cleanName name)

/-! ## 3. Entries -/

/-- A search as reading gives it: every field is in the form that is read as it is, or collapsed. -/
structure Settled (s : SavedSearch) : Prop where
  id : Text.Trimmed s.id
  name : Text.isBlank s.name = false
  query : Text.trim s.query = s.query
  filter : s.filter ∈ filters
  sortBy : s.sortBy ∈ sortOrders
  window : s.window ∈ windows
  limit : s.limit ∈ limits
  createdAt : Timestamp.Written s.createdAt
  updatedAt : Timestamp.Written s.updatedAt

/-- A search with its name collapsed. -/
def withCleanName (s : SavedSearch) : SavedSearch :=
  { s with name := cleanName s.name }

theorem withCleanName_eq_self_iff {s : SavedSearch} :
    withCleanName s = s ↔ cleanName s.name = s.name := by
  constructor
  · exact congrArg SavedSearch.name
  · intro h
    rw [withCleanName, h]

theorem settled_withCleanName {s : SavedSearch} (h : Settled s) : Settled (withCleanName s) :=
  { h with name := (isBlank_cleanName s.name).trans h.name }

/-- The entry of a settled search is read as the search with its name collapsed. -/
theorem ofStored?_entry {s : SavedSearch} (h : Settled s) (now : String) :
    ofStored? now (entry s) = some (withCleanName s) := by
  simp [entry, ofStored?, Json.field, Json.lookup?, Json.isSet, withCleanName,
    Decode.trimmed?_str h.id, Decode.text?_str h.name, Decode.text, Json.str?, h.query,
    filterOf, sortOf, windowOf, wordOr_str h.filter, wordOr_str h.sortBy, wordOr_str h.window,
    limitOf_int h.limit, Decode.timestamp, Timestamp.normalize_of_written h.createdAt,
    Timestamp.normalize_of_written h.updatedAt]

/-- What is read of an entry is settled. -/
theorem settled_of_ofStored? {now : String} (hnow : Timestamp.Written now) {j : Json}
    {s : SavedSearch} (h : ofStored? now j = some s) : Settled s := by
  rw [ofStored?.eq_def] at h
  split at h
  · rename_i members
    obtain ⟨id, hid, rfl⟩ := Option.map_eq_some_iff.mp h
    have hcreated : Timestamp.Written (Decode.timestamp (Json.field members "createdAt")
        (Decode.timestamp (Json.field members "updatedAt") now)) :=
      Timestamp.written_normalize (Timestamp.written_normalize hnow _) _
    have hmade := isBlank_defaultName (filterOf_mem (Json.field members "filter"))
      (sortOf_mem (Json.field members "sortBy")) (windowOf_mem (Json.field members "timelineWindow"))
      (Text.trim (Decode.text (Json.field members "query") "")) (Json.field members "verbatim").isSet
    exact ⟨Decode.trimmed_of_trimmed? hid, isBlank_nameOr _ hmade, Text.trim_trim _, filterOf_mem _,
      sortOf_mem _, windowOf_mem _, limitOf_mem _, hcreated, Timestamp.written_normalize hcreated _⟩
  · cases h

/-- A name that was read is collapsed, unless it was made from a query. -/
theorem name_of_ofStored? {now : String} {j : Json} {s : SavedSearch}
    (h : ofStored? now j = some s) : cleanName s.name = s.name ∨
      (Text.isBlank s.query = false ∧
        s.name = defaultName s.query s.filter s.sortBy s.window s.verbatim) := by
  rw [ofStored?.eq_def] at h
  split at h
  · rename_i members
    obtain ⟨id, -, rfl⟩ := Option.map_eq_some_iff.mp h
    refine (cleanName_nameOr _ _).elim Or.inl fun hmade => ?_
    by_cases hquery : Text.isBlank (Text.trim (Decode.text (Json.field members "query") "")) = true
    · have hclean := cleanName_defaultName (filterOf_mem (Json.field members "filter"))
        (sortOf_mem (Json.field members "sortBy"))
        (windowOf_mem (Json.field members "timelineWindow")) hquery
        (Json.field members "verbatim").isSet
      exact Or.inl ((congrArg cleanName hmade).trans (hclean.trans hmade.symm))
    · exact Or.inr ⟨Bool.eq_false_iff.mpr hquery, hmade⟩
  · cases h

/-! ## 4. Lists -/

theorem firstOfId_sublist : ∀ searches : List SavedSearch, (firstOfId searches).Sublist searches
  | [] => List.Sublist.refl _
  | s :: r => (List.filter_sublist.trans (firstOfId_sublist r)).cons_cons s

theorem nodup_firstOfId : ∀ searches : List SavedSearch,
    ((firstOfId searches).map SavedSearch.id).Nodup
  | [] => List.nodup_nil
  | s :: r => by
      rw [firstOfId, List.map_cons, List.nodup_cons]
      refine ⟨?_, (nodup_firstOfId r).sublist (List.filter_sublist.map _)⟩
      intro hmem
      obtain ⟨t, ht, hid⟩ := List.mem_map.mp hmem
      simpa [hid] using (List.mem_filter.mp ht).2

theorem firstOfId_eq_self : ∀ {searches : List SavedSearch},
    (searches.map SavedSearch.id).Nodup → firstOfId searches = searches
  | [], _ => rfl
  | s :: r, h => by
      rw [List.map_cons, List.nodup_cons] at h
      have hother : ∀ t ∈ r, (t.id != s.id) = true := by
        intro t ht
        refine bne_iff_ne.mpr fun heq => h.1 ?_
        exact heq ▸ List.mem_map_of_mem ht
      rw [firstOfId, firstOfId_eq_self h.2, List.filter_eq_self.mpr hother]

/-- Every search of a stored value was read from one of its entries. -/
theorem exists_ofStored?_of_mem_decode {j : Json} {now : String} {s : SavedSearch}
    (h : s ∈ decode j now) : ∃ e, ofStored? now e = some s := by
  have hmem : s ∈ (entries j).filterMap (ofStored? now) := (firstOfId_sublist _).subset h
  obtain ⟨e, -, he⟩ := List.mem_filterMap.mp hmem
  exact ⟨e, he⟩

theorem settled_of_mem_decode {j : Json} {now : String} (hnow : Timestamp.Written now)
    {s : SavedSearch} (h : s ∈ decode j now) : Settled s := by
  obtain ⟨e, he⟩ := exists_ofStored?_of_mem_decode h
  exact settled_of_ofStored? hnow he

/-- Settled searches are read back with their names collapsed. -/
theorem decode_encode_of_settled {searches : List SavedSearch}
    (hids : (searches.map SavedSearch.id).Nodup) (h : ∀ s ∈ searches, Settled s) (now : String) :
    decode (encode searches) now = searches.map withCleanName := by
  have hentries : entries (encode searches) = searches.map entry := rfl
  have hread : (searches.map entry).filterMap (ofStored? now) = searches.map withCleanName := by
    rw [List.filterMap_map, ← List.filterMap_eq_map]
    exact List.filterMap_congr fun s hs => ofStored?_entry (h s hs) now
  have hids' : ((searches.map withCleanName).map SavedSearch.id).Nodup := by
    rw [List.map_map]
    exact hids
  rw [decode, hentries, hread, firstOfId_eq_self hids']

theorem map_withCleanName_eq_self_iff {searches : List SavedSearch} :
    searches.map withCleanName = searches ↔ ∀ s ∈ searches, cleanName s.name = s.name := by
  conv_lhs => rhs; rw [← List.map_id searches]
  rw [List.map_inj_left]
  exact forall₂_congr fun _ _ => withCleanName_eq_self_iff

/-! ## 5. Reading back -/

/-- Reading undoes writing: settled searches with distinct ids and collapsed names are read as they
were written, at any time. -/
theorem decode_encode {searches : List SavedSearch} (hids : (searches.map SavedSearch.id).Nodup)
    (h : ∀ s ∈ searches, Settled s ∧ cleanName s.name = s.name) (now : String) :
    decode (encode searches) now = searches := by
  rw [decode_encode_of_settled hids (fun s hs => (h s hs).1)]
  exact map_withCleanName_eq_self_iff.mpr fun s hs => (h s hs).2

/-- A pinned search with every setting changed, and one with none. -/
def assorted : List SavedSearch :=
  [{ id := "due", name := "Due · this week", query := "plan \"next week\"", filter := "tasks",
     sortBy := "newest", window := "7d", limit := 50, verbatim := true, pinned := true,
     createdAt := "2024-02-29T23:59:59.999Z", updatedAt := "9999-12-31T00:00:00.001Z" },
   { id := "σ-2", name := "Saved search", createdAt := "0001-01-01T00:00:00.000Z",
     updatedAt := "1969-12-31T23:59:59.999Z" }]

theorem decode_encode_assorted : (assorted.map SavedSearch.id).Nodup ∧
    (∀ s ∈ assorted, Settled s ∧ cleanName s.name = s.name) ∧
    decode (encode assorted) "never" = assorted := by
  have hids : (assorted.map SavedSearch.id).Nodup := by decide
  have hsettled : ∀ s ∈ assorted, Settled s ∧ cleanName s.name = s.name := by
    rw [assorted, List.forall_mem_cons, List.forall_mem_singleton]
    refine ⟨⟨⟨by decide +kernel, by decide +kernel, by decide +kernel, by decide, by decide,
      by decide, by decide, ⟨1709251199999, by decide +kernel⟩, ⟨253402214400001, by decide +kernel⟩⟩,
      by decide +kernel⟩, ⟨⟨by decide +kernel, by decide +kernel, by decide +kernel, by decide,
      by decide, by decide, by decide, ⟨Timestamp.least, by decide +kernel⟩,
      ⟨-1, by decide +kernel⟩⟩, by decide +kernel⟩⟩
  exact ⟨hids, hsettled, decode_encode hids hsettled "never"⟩

/-- What was read once is read back as it is but for its names, which are collapsed; only a name that
was made from a query can change by that. After the second reading nothing changes. -/
theorem decode_encode_decode {now : String} (hnow : Timestamp.Written now) (j : Json)
    (later : String) :
    decode (encode (decode j now)) later = (decode j now).map withCleanName ∧
      (decode (encode (decode j now)) later = decode j now ↔
        ∀ s ∈ decode j now, cleanName s.name = s.name) ∧
      (∀ s ∈ decode j now, cleanName s.name ≠ s.name → Text.isBlank s.query = false ∧
        s.name = defaultName s.query s.filter s.sortBy s.window s.verbatim) ∧
      ∀ last, decode (encode (decode (encode (decode j now)) later)) last =
        decode (encode (decode j now)) later := by
  have hsettled : ∀ s ∈ decode j now, Settled s := fun s hs => settled_of_mem_decode hnow hs
  have hread : decode (encode (decode j now)) later = (decode j now).map withCleanName :=
    decode_encode_of_settled (nodup_firstOfId _) hsettled later
  refine ⟨hread, ?_, ?_, ?_⟩
  · rw [hread, map_withCleanName_eq_self_iff]
  · intro s hs hname
    obtain ⟨e, he⟩ := exists_ofStored?_of_mem_decode hs
    exact (name_of_ofStored? he).resolve_left hname
  · intro last
    have hagain : ∀ s ∈ (decode j now).map withCleanName, Settled s ∧ cleanName s.name = s.name := by
      rw [List.forall_mem_map]
      exact fun s hs => ⟨settled_withCleanName (hsettled s hs), cleanName_cleanName s.name⟩
    have hids : (((decode j now).map withCleanName).map SavedSearch.id).Nodup := by
      rw [List.map_map]
      exact nodup_firstOfId _
    rw [hread, decode_encode_of_settled hids (fun s hs => (hagain s hs).1),
      map_withCleanName_eq_self_iff]
    exact fun s hs => (hagain s hs).2

/-- A search without a name, for two words that stand apart. -/
def apart : Json :=
  .arr [.obj [("id", .str "a"), ("query", .str "deep  work")]]

/-- The same search as the second reading gives it. -/
def together : SavedSearch :=
  { id := "a", name := "deep work", query := "deep  work",
    createdAt := "2026-02-12T00:00:00.000Z", updatedAt := "2026-02-12T00:00:00.000Z" }

theorem decode_encode_decode_apart :
    let now := "2026-02-12T00:00:00.000Z"
    Timestamp.Written now ∧ decode (encode (decode apart now)) now = [together] ∧
      ∀ last, decode (encode [together]) last = [together] := by
  intro now
  have hnow : Timestamp.Written now := ⟨1770854400000, by decide +kernel⟩
  obtain ⟨hread, -, -, hlast⟩ := decode_encode_decode hnow apart now
  have hname : (decode apart now).map withCleanName = [together] := by decide +kernel
  rw [hread, hname] at hlast
  exact ⟨hnow, hread.trans hname, hlast⟩

/-- So reading back is not always the identity: the name that was made up is not the name that is
read back. -/
theorem decode_encode_decode_ne_apart :
    let now := "2026-02-12T00:00:00.000Z"
    Timestamp.Written now ∧ decode (encode (decode apart now)) now ≠ decode apart now :=
  ⟨⟨1770854400000, by decide +kernel⟩, by decide +kernel⟩

end Saved

end Recall
