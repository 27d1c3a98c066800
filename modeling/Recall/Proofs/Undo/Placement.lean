/-
Recall.Proofs.Undo.Placement — where a deleted record stands once it is back.

The list may have been edited at will between the deletion and its undoing. `restore_placed` says,
of the list in which the undoing ends, that a record stands immediately behind its left neighbour if
that is there, else immediately ahead of its right one, else first if it was first.

Three things could go wrong between the step that puts a record back and the end of the run, and
each is excluded by where the later anchors come from (`mem_captureFrom`), which is further right in
the original list:

* a later record could come between it and the neighbour (`infix_restore` excludes it);
* a later record could come before the first one (`head?_restore`);
* the right neighbour could itself be put back later. Then it is the very next anchor, and its own
  left neighbour is the record (`exists_infix_restore`, used once for each of the two).
-/
import Recall.Proofs.Undo.Conservation

namespace Recall

namespace Undo

variable {α : Type} {id : α → String}

/-! ## 1. Where anchors come from -/

theorem lastId_cons (x : α) (s : List α) (before : Option String) :
    ((x :: s).getLast?.map id).or before = (s.getLast?.map id).or (some (id x)) := by
  rw [List.getLast?_cons]
  cases s.getLast? <;> rfl

/-- An anchor names the records next to its own. -/
theorem mem_captureFrom {deleted : List String} {a : Anchor α} :
    ∀ {items : List α} {before : Option String}, a ∈ captureFrom id deleted before items →
      id a.item ∈ deleted ∧ ∃ s t, items = s ++ a.item :: t ∧
        a.before = (s.getLast?.map id).or before ∧ a.after = t.head?.map id
  | [], _, h => by simp [captureFrom] at h
  | x :: r, before, h => by
      have hr : a ∈ captureFrom id deleted (some (id x)) r →
          id a.item ∈ deleted ∧ ∃ s t, x :: r = s ++ a.item :: t ∧
            a.before = (s.getLast?.map id).or before ∧ a.after = t.head?.map id := by
        intro hmem
        obtain ⟨hdel, s, t, hsplit, hbefore, hafter⟩ := mem_captureFrom hmem
        refine ⟨hdel, x :: s, t, by rw [hsplit, List.cons_append], ?_, hafter⟩
        rw [hbefore, lastId_cons]
      rw [captureFrom] at h
      split at h
      · rename_i hdel
        rcases List.mem_cons.mp h with rfl | hmem
        · exact ⟨by simpa using hdel, [], r, rfl, rfl, rfl⟩
        · exact hr hmem
      · exact hr h

/-- The anchors of the records ahead of a place come first, and those behind it know the last record
ahead of it. -/
theorem exists_captureFrom_append (id : α → String) (deleted : List String) (rest : List α) :
    ∀ (s : List α) (before : Option String), ∃ anchors : List (Anchor α),
      captureFrom id deleted before (s ++ rest) =
        anchors ++ captureFrom id deleted ((s.getLast?.map id).or before) rest ∧
      ∀ a ∈ anchors, a.item ∈ s
  | [], before => ⟨[], rfl, by simp⟩
  | x :: s, before => by
      obtain ⟨anchors, happ, hmem⟩ := exists_captureFrom_append id deleted rest s (some (id x))
      rw [List.cons_append, captureFrom, happ, lastId_cons]
      split
      · exact ⟨⟨x, before, _⟩ :: anchors, rfl, by
          rintro a (_ | ⟨_, ha⟩)
          · exact List.mem_cons_self
          · exact List.mem_cons_of_mem _ (hmem a ha)⟩
      · exact ⟨anchors, rfl, fun a ha => List.mem_cons_of_mem _ (hmem a ha)⟩

/-- The left neighbours that anchors name are the one given and records of the list. -/
theorem before_ne_of_mem_captureFrom {deleted : List String} {items : List α} {a : Anchor α}
    {left key : String} (h : a ∈ captureFrom id deleted (some left) items) (hne : key ≠ left)
    (hkey : key ∉ items.map id) : a.before ≠ some key := by
  obtain ⟨-, s, t, rfl, hbefore, -⟩ := mem_captureFrom h
  rw [hbefore]
  cases hs : s.getLast? with
  | none => simpa using Ne.symm hne
  | some z =>
    have hz : z ∈ s := List.mem_of_getLast? hs
    intro heq
    simp only [Option.map_some, Option.some_or, Option.some.injEq] at heq
    exact hkey (heq ▸ List.mem_map_of_mem (List.mem_append_left _ hz))

/-- The right neighbours that anchors name are records of the list, and never its first. -/
theorem after_ne_of_mem_captureFrom {deleted : List String} {items : List α} {a : Anchor α}
    {before : Option String} {key : String} (h : a ∈ captureFrom id deleted before items)
    (hkey : key ∉ items.tail.map id) : a.after ≠ some key := by
  obtain ⟨-, s, t, rfl, -, hafter⟩ := mem_captureFrom h
  rw [hafter]
  cases ht : t.head? with
  | none => simp
  | some z =>
    have hz : z ∈ (s ++ a.item :: t).tail := by
      have : z ∈ t := List.mem_of_head? ht
      cases s <;> simp [this]
    intro heq
    simp only [Option.map_some, Option.some.injEq] at heq
    exact hkey (heq ▸ List.mem_map_of_mem hz)

/-! ## 2. Later anchors -/

/-- Records stay side by side while no record comes back between them. -/
theorem infix_restore {x y : α} (anchors : List (Anchor α)) : ∀ {items : List α},
    [x, y] <:+: items →
    (∀ a ∈ anchors, id a.item ∈ items.map id ∨
      a.before ≠ some (id x) ∧ a.after ≠ some (id y)) →
    [x, y] <:+: restore id items anchors := by
  induction anchors with
  | nil => exact fun h _ => h
  | cons a r ih =>
    intro items hxy hall
    rw [restore_cons]
    refine ih ?_ fun c hc => ?_
    · rcases hall a List.mem_cons_self with hin | ⟨hb, ha⟩
      · rwa [putBack_of_mem hin]
      · exact infix_putBack hxy hb ha
    · rcases hall c (List.mem_cons_of_mem _ hc) with hin | hapart
      · exact .inl (mem_ids_putBack.mpr (.inr hin))
      · exact .inr hapart

theorem head?_restore {d : α} (anchors : List (Anchor α)) : ∀ {items : List α},
    items.head? = some d →
    (∀ a ∈ anchors, a.before ≠ none ∧ a.after ≠ some (id d)) →
    (restore id items anchors).head? = some d := by
  induction anchors with
  | nil => exact fun h _ => h
  | cons a r ih =>
    intro items hd hall
    rw [restore_cons]
    obtain ⟨hb, ha⟩ := hall a List.mem_cons_self
    exact ih (head?_putBack hd hb ha) fun c hc => hall c (List.mem_cons_of_mem _ hc)

/-- The last record of an id. -/
theorem exists_last_of_mem {key : String} {items : List α} (h : key ∈ items.map id) :
    ∃ u b v, items = u ++ b :: v ∧ id b = key ∧ key ∉ v.map id := by
  induction items with
  | nil => simp at h
  | cons a r ih =>
    by_cases hr : key ∈ r.map id
    · obtain ⟨u, b, v, rfl, hb, hv⟩ := ih hr
      exact ⟨a :: u, b, v, rfl, hb, hv⟩
    · rcases List.mem_cons.mp h with rfl | hin
      · exact ⟨[], a, r, rfl, rfl, hr⟩
      · exact absurd hin hr

/-- A deleted record whose left neighbour is there comes back behind it and stays there. -/
theorem exists_infix_restore {deleted : List String} {items r : List α} {y : α} {key : String}
    (hkey : key ∈ items.map id) (hy : id y ∈ deleted) (hnew : id y ∉ items.map id)
    (hr : ((y :: r).map id).Nodup) (hapart : key ∉ (y :: r).map id) :
    ∃ x ∈ items, id x = key ∧
      [x, y] <:+: restore id items (captureFrom id deleted (some key) (y :: r)) := by
  obtain ⟨u, x, v, rfl, rfl, hv⟩ := exists_last_of_mem hkey
  refine ⟨x, by simp, rfl, ?_⟩
  rw [captureFrom, if_pos (by simpa using hy), restore_cons, putBack_behind rfl hv hnew]
  have hyr : id y ∉ r.map id := (List.nodup_cons.mp hr).1
  have htail : id y ∉ r.tail.map id := fun h => hyr (((List.tail_sublist r).map id).subset h)
  rw [List.map_cons, List.mem_cons, not_or] at hapart
  exact infix_restore _ ⟨u, v, by simp⟩ fun a ha => .inr
    ⟨before_ne_of_mem_captureFrom ha hapart.1 hapart.2, after_ne_of_mem_captureFrom ha htail⟩

/-- A record stands ahead of its right neighbour at the end if it was put there, or if the neighbour
was not there and is the next to be put back. -/
theorem exists_infix_restore_next {deleted : List String} {items r : List α} {d c : α}
    (hd : d ∈ items) (honly : ∀ x ∈ items, id x = id d → x = d)
    (hr : ((d :: c :: r).map id).Nodup)
    (hc : id c ∈ items.map id → ∃ y, id y = id c ∧ [d, y] <:+: items)
    (hend : id c ∈ (restore id items (captureFrom id deleted (some (id d)) (c :: r))).map id) :
    ∃ y, id y = id c ∧
      [d, y] <:+: restore id items (captureFrom id deleted (some (id d)) (c :: r)) := by
  have hdc : id d ∉ (c :: r).map id := (List.nodup_cons.mp hr).1
  have hcr : ((c :: r).map id).Nodup := (List.nodup_cons.mp hr).2
  by_cases hin : id c ∈ items.map id
  · obtain ⟨y, hy, hside⟩ := hc hin
    refine ⟨y, hy, infix_restore _ hside fun a ha => ?_⟩
    rw [hy]
    -- the anchor of the neighbour itself finds it in the list; the others come from behind it
    have hrest : a ∈ captureFrom id deleted (some (id c)) r →
        a.before ≠ some (id d) ∧ a.after ≠ some (id c) := by
      intro hmem
      rw [List.map_cons, List.mem_cons, not_or] at hdc
      have htail : id c ∉ r.tail.map id := fun h =>
        (List.nodup_cons.mp hcr).1 (((List.tail_sublist r).map id).subset h)
      exact ⟨before_ne_of_mem_captureFrom hmem hdc.1 hdc.2,
        after_ne_of_mem_captureFrom hmem htail⟩
    rw [captureFrom] at ha
    split at ha
    · rcases List.mem_cons.mp ha with rfl | hmem
      · exact .inl hin
      · exact .inr (hrest hmem)
    · exact .inr (hrest ha)
  · have hdel : id c ∈ deleted := by
      rcases (mem_ids_restore _).mp hend with h | ⟨a, ha, hac⟩
      · exact absurd h hin
      · exact hac ▸ (mem_captureFrom ha).1
    obtain ⟨x, hx, hxd, hside⟩ :=
      exists_infix_restore (List.mem_map_of_mem hd) hdel hin hcr hdc
    rw [honly x hx hxd] at hside
    exact ⟨c, rfl, hside⟩

/-! ## 3. Placement -/

/-- How a record stands in a list, said of the records next to which it stood before: behind the one
on its left if the list has that, else ahead of the one on its right, else first if it was. -/
structure Placed (id : α → String) (left right : Option α) (d : α) (items : List α) : Prop where
  behind : ∀ b ∈ left, id b ∈ items.map id → ∃ x, id x = id b ∧ [x, d] <:+: items
  ahead : (∀ b ∈ left, id b ∉ items.map id) → ∀ c ∈ right, id c ∈ items.map id →
    ∃ y, id y = id c ∧ [d, y] <:+: items
  first : left = none → (∀ c ∈ right, id c ∉ items.map id) → items.head? = some d

/-- The anchor of a deleted record is the next one when its turn comes. -/
theorem restore_captureFrom_cons {deleted : List String} {d : α} (hdel : id d ∈ deleted)
    (items t : List α) (before : Option String) :
    restore id items (captureFrom id deleted before (d :: t)) =
      restore id (putBack id items ⟨d, before, t.head?.map id⟩)
        (captureFrom id deleted (some (id d)) t) := by
  rw [captureFrom, if_pos (by simpa using hdel), restore_cons]

/-- A record whose turn has come is placed by the rest of the run. -/
theorem placed_restore_captureFrom {deleted : List String} {items s t : List α} {d : α}
    (hdel : id d ∈ deleted) (hnew : id d ∉ items.map id) (hdt : ((d :: t).map id).Nodup)
    (hs : ∀ b ∈ s, id b ∉ (d :: t).map id) :
    Placed id s.getLast? t.head? d
      (restore id items (captureFrom id deleted (s.getLast?.map id) (d :: t))) := by
  have hdt' : id d ∉ t.map id := (List.nodup_cons.mp hdt).1
  have hsub : ∀ key ∈ items.map id, key ∈
      (restore id items (captureFrom id deleted (s.getLast?.map id) (d :: t))).map id :=
    fun key hkey => ((sublist_restore _ items).map id).subset hkey
  refine ⟨fun b hb hend => ?_, fun hleft c hc hend => ?_, fun hnone hright => ?_⟩
  · have hbt := hs b (List.mem_of_getLast? hb)
    have hin : id b ∈ items.map id := by
      rcases (mem_ids_restore _).mp hend with h | ⟨a, ha, hab⟩
      · exact h
      · obtain ⟨-, u, v, huv, -⟩ := mem_captureFrom ha
        exact absurd (hab ▸ List.mem_map_of_mem (by rw [huv]; simp)) hbt
    rw [Option.mem_def.mp hb]
    obtain ⟨x, -, hx, hside⟩ := exists_infix_restore hin hdel hnew hdt hbt
    exact ⟨x, hx, hside⟩
  · obtain ⟨r, rfl⟩ := List.head?_eq_some_iff.mp hc
    have hperm := putBack_perm (a := ⟨d, s.getLast?.map id, (c :: r).head?.map id⟩) hnew
    rw [restore_captureFrom_cons hdel] at hend ⊢
    refine exists_infix_restore_next (hperm.mem_iff.mpr List.mem_cons_self) ?_ hdt ?_ hend
    · intro x hx hxd
      rcases List.mem_cons.mp (hperm.mem_iff.mp hx) with rfl | hx
      · rfl
      · exact absurd (hxd ▸ List.mem_map_of_mem hx) hnew
    · intro hin
      have hcd : id c ≠ id d := fun h => hdt' (h ▸ List.mem_map_of_mem List.mem_cons_self)
      have hitems : id c ∈ items.map id := (mem_ids_putBack.mp hin).resolve_left hcd
      obtain ⟨u, y, v, rfl, hy, hv⟩ := exists_last_of_mem hitems
      refine ⟨y, hy, u, v, ?_⟩
      rw [putBack_ahead ?_ (by simp [hy]) (hy ▸ hv) hnew]
      · simp
      · intro key hkey hmem
        obtain ⟨b, hb, rfl⟩ := Option.map_eq_some_iff.mp hkey
        exact hleft b hb (hsub _ hmem)
  · rw [hnone, Option.map_none] at hright hsub ⊢
    have hright' : ∀ key ∈ t.head?.map id, key ∉ items.map id := by
      intro key hkey hmem
      obtain ⟨c, hc, rfl⟩ := Option.map_eq_some_iff.mp hkey
      exact hright c hc (hsub _ hmem)
    rw [restore_captureFrom_cons hdel, putBack_first rfl hright' hnew]
    refine head?_restore _ rfl fun a ha => ⟨?_, after_ne_of_mem_captureFrom ha ?_⟩
    · obtain ⟨-, u, v, -, hbefore, -⟩ := mem_captureFrom ha
      rw [hbefore]
      cases u.getLast? <;> simp
    · exact fun h => hdt' (((List.tail_sublist t).map id).subset h)

/-- **A deleted record comes back to its neighbours**, however the list was edited in between. -/
theorem restore_placed {original current s t : List α} {deleted : List String} {d : α}
    (ho : (original.map id).Nodup) (hsplit : original = s ++ d :: t) (hdel : id d ∈ deleted)
    (hgone : id d ∉ current.map id) :
    Placed id s.getLast? t.head? d (restore id current (capture id original deleted)) := by
  subst hsplit
  rw [List.map_append, List.nodup_append] at ho
  obtain ⟨-, hdt, hapart⟩ := ho
  obtain ⟨anchors, happ, hahead⟩ := exists_captureFrom_append id deleted (d :: t) s none
  rw [capture, happ, restore_append, Option.or_none]
  refine placed_restore_captureFrom hdel ?_ hdt fun b hb h =>
    hapart _ (List.mem_map_of_mem hb) _ h rfl
  -- the records ahead of `d` are back by now, and none of them has its id
  rw [mem_ids_restore]
  rintro (h | ⟨a, ha, had⟩)
  · exact hgone h
  · exact hapart _ (List.mem_map_of_mem (hahead a ha)) _ (by simp) had

/-- Two neighbours are gone from a list that was turned around and got a new record. Undone, `c`
stands behind `b`, which stands behind the changed `a`. -/
theorem restore_placed_reordered :
    ([("a", 1), ("b", 2), ("c", 3), ("d", 4)].map Prod.fst).Nodup ∧
    "c" ∈ ["c", "b"] ∧ "c" ∉ [("d", 4), ("e", 5), ("a", 9)].map Prod.fst ∧
    Placed Prod.fst (some ("b", 2)) (some ("d", 4)) ("c", 3)
      [("d", 4), ("e", 5), ("a", 9), ("b", 2), ("c", 3)] := by
  have ho : ([("a", 1), ("b", 2), ("c", 3), ("d", 4)].map Prod.fst).Nodup := by decide
  have hsplit : [("a", 1), ("b", 2), ("c", 3), ("d", 4)] =
    [("a", 1), ("b", 2)] ++ ("c", 3) :: [("d", 4)] := rfl
  have hdel : "c" ∈ ["c", "b"] := by decide
  have hgone : "c" ∉ [("d", 4), ("e", 5), ("a", 9)].map Prod.fst := by decide
  exact ⟨ho, hdel, hgone, restore_placed ho hsplit hdel hgone⟩

end Undo

end Recall
