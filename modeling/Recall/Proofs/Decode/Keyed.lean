/-
Recall.Proofs.Decode.Keyed — maps and lists of texts that were decoded once.

A stored map is read member by member (`keepMember`), and after each member it is in order (`Keyed`):
its keys are trimmed and distinct, and its values are such as are read of something. A map that is in
order is read as it is, if its values are (`keyed_written`): no key is changed or met twice, so every
member is put behind the others.
-/
import Mathlib.Data.List.Nodup
import Recall.Decode.Records
import Recall.Proofs.Decode.Coerce
import Recall.Proofs.Json.Member

namespace Recall

/-! ## 1. Lists of texts -/

/-- A list of texts as it is stored. -/
def Json.texts (ts : List String) : Json :=
  .arr (ts.map .str)

namespace Decode

theorem textList_texts {ts : List String} (h : ∀ t ∈ ts, Text.Trimmed t) (hnodup : ts.Nodup) :
    textList (Json.texts ts) = ts := by
  have hread : (ts.map Json.str).filterMap trimmed? = ts := by
    rw [List.filterMap_map]
    exact (List.filterMap_congr fun t ht => trimmed?_str (h t ht)).trans List.filterMap_some
  rw [Json.texts, textList, hread, Text.distinct_eq_self hnodup]

/-- What was read of a list of texts is read as it is. -/
theorem textList_written (j : Json) : textList (Json.texts (textList j)) = textList j :=
  textList_texts (fun _ h => trimmed_of_mem_textList h) (nodup_textList j)

theorem recent_eq_take {limit : Int} (h : 0 ≤ limit) (j : Json) :
    recent limit j = (textList j).take limit.toNat :=
  if_pos h

/-- Queries that are trimmed and distinct are read as they are, up to the limit. -/
theorem recent_texts {limit : Int} {ts : List String} (h : ∀ t ∈ ts, Text.Trimmed t)
    (hnodup : ts.Nodup) (hlen : (ts.length : Int) ≤ limit) : recent limit (Json.texts ts) = ts := by
  rw [recent_eq_take (by omega), textList_texts h hnodup, List.take_of_length_le (by omega)]

theorem recent_written {limit : Int} (h : 0 ≤ limit) (j : Json) :
    recent limit (Json.texts (recent limit j)) = recent limit j := by
  have hsub : (recent limit j).Sublist (textList j) := by
    rw [recent_eq_take h]
    exact List.take_sublist _ _
  have hlen : (recent limit j).length ≤ limit.toNat := by
    rw [recent_eq_take h]
    exact List.length_take_le _ _
  exact recent_texts (fun t ht => trimmed_of_mem_textList (hsub.subset ht))
    (hsub.nodup (nodup_textList j)) (by omega)

end Decode

/-! ## 2. Maps -/

namespace Decode

variable {α : Type}

/-- A map in order: every key is trimmed and is there once, and every value is read of something. -/
structure Keyed (usable? : Json → Option α) (map : List (String × α)) : Prop where
  trimmed : ∀ m ∈ map, Text.Trimmed m.1
  nodup : (map.map Prod.fst).Nodup
  usable : ∀ m ∈ map, ∃ v, usable? v = some m.2

/-- A map with one more member read. -/
def keepMember (usable? : Json → Option α) (done : List (String × α)) (m : String × Json) :
    List (String × α) :=
  if Text.isBlank m.1 then done
  else match usable? m.2 with
    | some a => Json.put done (Text.trim m.1) a
    | none => done

theorem keyed_obj (usable? : Json → Option α) (members : Members) :
    keyed usable? (.obj members) = members.foldl (keepMember usable?) [] :=
  rfl

section Reading

variable {usable? : Json → Option α}

/-- One member leaves a map in order. -/
theorem keyed_keepMember {done : List (String × α)} (h : Keyed usable? done) (m : String × Json) :
    Keyed usable? (keepMember usable? done m) := by
  rw [keepMember]
  split
  · exact h
  · rename_i hblank
    split
    · rename_i a ha
      refine ⟨fun n hn => ?_, ?_, fun n hn => ?_⟩
      · rcases Json.mem_put hn with rfl | hn
        · exact Text.trimmed_trim (Bool.eq_false_iff.mpr hblank)
        · exact h.trimmed n hn
      · rw [Json.map_fst_put]
        split
        · exact h.nodup
        · rename_i hnew
          refine List.nodup_append.mpr ⟨h.nodup, List.nodup_singleton _, ?_⟩
          intro key hkey last hlast heq
          rw [heq, List.mem_singleton.mp hlast] at hkey
          exact hnew hkey
      · rcases Json.mem_put hn with rfl | hn
        · exact ⟨m.2, ha⟩
        · exact h.usable n hn
    · exact h

theorem keyed_foldl_keepMember {done : List (String × α)} (h : Keyed usable? done)
    (members : Members) : Keyed usable? (members.foldl (keepMember usable?) done) := by
  induction members generalizing done with
  | nil => exact h
  | cons m r ih => exact ih (keyed_keepMember h m)

/-- What is read of a stored map is in order. -/
theorem keyed_keyed (usable? : Json → Option α) (j : Json) : Keyed usable? (keyed usable? j) := by
  have hempty : Keyed usable? [] := ⟨nofun, List.nodup_nil, nofun⟩
  cases j with
  | obj members => exact keyed_foldl_keepMember hempty members
  | _ => exact hempty

end Reading

/-! ## 3. Writing -/

/-- A map as it is stored. -/
def storedMap (write : α → Json) (map : List (String × α)) : Json :=
  .obj (map.map fun m => (m.1, write m.2))

/-- The members of a map in order are read one behind the other. -/
theorem foldl_keepMember_written {usable? : Json → Option α} {write : α → Json} :
    ∀ {rest done : List (String × α)}, Keyed usable? (done ++ rest) →
      (∀ m ∈ rest, usable? (write m.2) = some m.2) →
      (rest.map fun m => (m.1, write m.2)).foldl (keepMember usable?) done = done ++ rest
  | [], done, _, _ => (List.append_nil done).symm
  | m :: r, done, h, hwrite => by
      have htrimmed : Text.Trimmed m.1 := h.trimmed m (by simp)
      have hnew : m.1 ∉ done.map Prod.fst := by
        have hnodup := h.nodup
        rw [List.map_append, List.map_cons, List.nodup_append] at hnodup
        exact fun hmem => hnodup.2.2 _ hmem _ List.mem_cons_self rfl
      have hstep : keepMember usable? done (m.1, write m.2) = done ++ [m] := by
        simp only [keepMember, Text.isBlank_of_trimmed htrimmed, Bool.false_eq_true, if_false,
          hwrite m List.mem_cons_self, htrimmed.2, Json.put_of_not_mem m.2 hnew]
      have hrest : Keyed usable? ((done ++ [m]) ++ r) := by
        rwa [List.append_assoc, List.singleton_append]
      have ih := foldl_keepMember_written hrest fun n hn => hwrite n (List.mem_cons_of_mem m hn)
      rw [List.map_cons, List.foldl_cons, hstep, ih, List.append_assoc, List.singleton_append]

/-- What was read of a stored map is read as it is, if the values are. -/
theorem keyed_written {usable? : Json → Option α} {write : α → Json}
    (hwrite : ∀ v a, usable? v = some a → usable? (write a) = some a) (j : Json) :
    keyed usable? (storedMap write (keyed usable? j)) = keyed usable? j := by
  have h : Keyed usable? ([] ++ keyed usable? j) := keyed_keyed usable? j
  rw [storedMap, keyed_obj]
  refine foldl_keepMember_written h fun m hm => ?_
  obtain ⟨v, hv⟩ := h.usable m hm
  exact hwrite v m.2 hv

theorem notes_written (j : Json) : notes (storedMap .str (notes j)) = notes j :=
  keyed_written (fun _ _ h => text?_str (isBlank_of_text? h)) j

theorem spaceTags_written (j : Json) :
    spaceTags (storedMap Json.texts (spaceTags j)) = spaceTags j := by
  refine keyed_written ?_ j
  rintro v tags ⟨⟩
  exact congrArg some (textList_written v)

end Decode

end Recall
