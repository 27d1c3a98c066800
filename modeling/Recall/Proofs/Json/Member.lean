/-
Recall.Proofs.Json.Member — setting members and asking for them.

A member that is set takes the place of the one with its key, and a new one comes last
(`map_fst_put`, `put_of_not_mem`); so members with distinct keys, set one after the other, are the
list of them (`foldl_put`). A member that was set is what is found under its key, and under every
other key the same is found as before (`lookup_put`, `field_put`). Where keys are distinct the order
of the members does not matter (`field_perm`).
-/
import Mathlib.Data.List.Nodup
import Recall.Json.Value

namespace Recall

namespace Json

variable {α : Type}

/-! ## 1. The list of members -/

theorem map_fst_put (members : List (String × α)) (key : String) (value : α) :
    (put members key value).map Prod.fst =
      if key ∈ members.map Prod.fst then members.map Prod.fst else members.map Prod.fst ++ [key] := by
  induction members with
  | nil => rfl
  | cons m r ih =>
    by_cases h : m.1 = key
    · simp [put, h]
    · have hne : key ≠ m.1 := fun heq => h heq.symm
      simp only [put, if_neg h, List.map_cons, ih, List.mem_cons, hne, false_or]
      split <;> rfl

theorem mem_put {members : List (String × α)} {key : String} {value : α} {m : String × α}
    (h : m ∈ put members key value) : m = (key, value) ∨ m ∈ members := by
  induction members with
  | nil => exact Or.inl (List.mem_singleton.mp h)
  | cons n r ih =>
    rw [put] at h
    split at h
    · rcases List.mem_cons.mp h with rfl | h
      · rename_i heq
        exact Or.inl (by rw [← heq])
      · exact Or.inr (List.mem_cons_of_mem n h)
    · rcases List.mem_cons.mp h with rfl | h
      · exact Or.inr List.mem_cons_self
      · exact (ih h).imp_right (List.mem_cons_of_mem n)

/-- A new key comes last. -/
theorem put_of_not_mem {members : List (String × α)} {key : String} (value : α)
    (h : key ∉ members.map Prod.fst) : put members key value = members ++ [(key, value)] := by
  induction members with
  | nil => rfl
  | cons m r ih =>
    rw [List.map_cons, List.mem_cons, not_or] at h
    rw [put, if_neg fun heq => h.1 heq.symm, ih h.2, List.cons_append]

theorem foldl_put {members more : List (String × α)}
    (h : ((members ++ more).map Prod.fst).Nodup) :
    more.foldl (fun done m => put done m.1 m.2) members = members ++ more := by
  induction more generalizing members with
  | nil => exact (List.append_nil members).symm
  | cons m r ih =>
    have hnew : m.1 ∉ members.map Prod.fst := by
      rw [List.map_append, List.map_cons] at h
      exact fun hmem => List.disjoint_of_nodup_append h hmem List.mem_cons_self
    rw [List.foldl_cons, put_of_not_mem m.2 hnew, ih (by simpa using h), List.append_assoc,
      List.singleton_append]

/-! ## 2. Asking for a member -/

theorem lookup_cons_eq (m : String × α) (members : List (String × α)) (key : String) :
    (m :: members).lookup key = if m.1 = key then some m.2 else members.lookup key := by
  obtain ⟨k, v⟩ := m
  by_cases h : k = key
  · simp [h]
  · have hne : (key == k) = false := beq_false_of_ne fun heq => h heq.symm
    simp [h, hne, List.lookup_cons]

/-- A member that was set is found, and the others are found as before. -/
theorem lookup_put (members : List (String × α)) (key other : String) (value : α) :
    (put members key value).lookup other =
      if key = other then some value else members.lookup other := by
  induction members with
  | nil => exact lookup_cons_eq (key, value) [] other
  | cons m r ih =>
    by_cases hk : m.1 = key
    · rw [put, if_pos hk, lookup_cons_eq, lookup_cons_eq, hk]
      split <;> rfl
    · rw [put, if_neg hk, lookup_cons_eq, lookup_cons_eq, ih]
      by_cases h : m.1 = other
      · rw [if_pos h, if_pos h, if_neg fun heq => hk (h.trans heq.symm)]
      · rw [if_neg h, if_neg h]

theorem lookup?_eq_lookup (key : String) (members : List (String × Json)) :
    lookup? key members = members.lookup key := by
  induction members with
  | nil => rfl
  | cons m r ih => rw [lookup?, lookup_cons_eq, ih]

theorem field_put (members : List (String × Json)) (key other : String) (value : Json) :
    field (put members key value) other = if key = other then value else field members other := by
  simp only [field, lookup?_eq_lookup, lookup_put]
  split <;> rfl

theorem lookup_eq_some_iff_mem {members : List (String × α)} (h : (members.map Prod.fst).Nodup)
    {key : String} {value : α} : members.lookup key = some value ↔ (key, value) ∈ members := by
  induction members with
  | nil => simp
  | cons m r ih =>
    rw [List.map_cons, List.nodup_cons] at h
    rw [lookup_cons_eq, List.mem_cons]
    by_cases hk : m.1 = key
    · have hrest : (key, value) ∉ r := fun hmem => h.1 (hk ▸ List.mem_map_of_mem hmem)
      rw [if_pos hk, or_iff_left hrest, Option.some.injEq, Prod.ext_iff]
      exact ⟨fun heq => ⟨hk.symm, heq.symm⟩, fun heq => heq.2.symm⟩
    · have hhead : (key, value) ≠ m := fun heq => hk (by rw [← heq])
      rw [if_neg hk, ih h.2, or_iff_right hhead]

/-- Where keys are distinct the order of the members does not matter. -/
theorem field_perm {members other : List (String × Json)} (h : members.Perm other)
    (hnodup : (other.map Prod.fst).Nodup) (key : String) : field members key = field other key := by
  have hnodup' : (members.map Prod.fst).Nodup := (h.map Prod.fst).nodup_iff.mpr hnodup
  have hlookup : members.lookup key = other.lookup key := by
    refine Option.ext fun value => ?_
    rw [lookup_eq_some_iff_mem hnodup', lookup_eq_some_iff_mem hnodup, h.mem_iff]
  simp only [field, lookup?_eq_lookup, hlookup]

end Json

end Recall
