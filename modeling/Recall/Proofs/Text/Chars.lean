/-
Recall.Proofs.Text.Chars — the ends, the pieces and the joints of texts.

What is stated here of stripping, cutting and joining knows nothing of queries:

* a stripped text is one whose first and last characters may stay (`strip_eq_self_iff`), and what
  stands between characters that go is what is left (`strip_append_append`);
* cutting at an element is cutting on both sides of it (`cut_append_cons`), so the non-empty pieces
  of two lists with a separator between them are the pieces of one and then of the other;
* words that are joined are cut into the same words again (`fields_join`);
* texts joined in two groups are joined together, if neither group is empty
  (`Text.join_join_append`).
-/
import Mathlib.Data.List.DropRight
import Recall.Text.Chars

namespace Recall

namespace Chars

/-! ## 1. Ends -/

section Ends

variable {p : Char → Bool}

theorem dropRight_eq_rdropWhile (p : Char → Bool) : ∀ cs : List Char,
    dropRight p cs = cs.rdropWhile p := by
  intro cs
  induction cs with
  | nil => rfl
  | cons c r ih =>
    rw [dropRight, ih, List.rdropWhile, List.rdropWhile, List.reverse_cons, List.dropWhile_append]
    cases h : List.dropWhile p r.reverse with
    | nil => by_cases hc : p c = true <;> simp [hc]
    | cons d s =>
      simp only [List.isEmpty_cons, Bool.false_eq_true, if_false, List.reverse_append,
        List.reverse_cons, List.reverse_nil, List.nil_append, List.singleton_append]
      split
      · rename_i heq
        simp at heq
      · rename_i heq
        rw [heq]

theorem dropRight_eq_self_iff {cs : List Char} :
    dropRight p cs = cs ↔ ∀ c ∈ cs.getLast?, p c = false := by
  rw [dropRight_eq_rdropWhile, List.rdropWhile_eq_self_iff]
  cases cs with
  | nil => simp
  | cons c r => simp [List.getLast?_eq_getLast_of_ne_nil]

theorem dropWhile_eq_self_iff {cs : List Char} :
    cs.dropWhile p = cs ↔ ∀ c ∈ cs.head?, p c = false := by
  rw [List.dropWhile_eq_self_iff]
  cases cs with
  | nil => simp
  | cons c r => simp

/-- A text is stripped when its first and its last character may stay. -/
theorem strip_eq_self_iff {cs : List Char} :
    strip p cs = cs ↔ (∀ c ∈ cs.head?, p c = false) ∧ ∀ c ∈ cs.getLast?, p c = false := by
  rw [← dropWhile_eq_self_iff, ← dropRight_eq_self_iff, strip]
  constructor
  · -- Each end can only lose, so where nothing is lost in all, neither end has lost anything.
    intro h
    have hlen : cs.length ≤ (cs.dropWhile p).length := by
      have hle : (dropRight p (cs.dropWhile p)).length ≤ (cs.dropWhile p).length := by
        rw [dropRight_eq_rdropWhile]
        exact (List.rdropWhile_prefix p _).length_le
      rwa [h] at hle
    have hd : cs.dropWhile p = cs := (List.dropWhile_suffix p).eq_of_length_le hlen
    exact ⟨hd, by rwa [hd] at h⟩
  · rintro ⟨hd, hr⟩
    rw [hd, hr]

/-- Nothing is left of a text whose characters all go. -/
theorem strip_eq_nil_iff {cs : List Char} : strip p cs = [] ↔ ∀ c ∈ cs, p c = true := by
  rw [strip, dropRight_eq_rdropWhile, List.rdropWhile_eq_nil_iff]
  constructor
  · intro h
    have hdrop : cs.dropWhile p = [] := by
      cases hd : cs.dropWhile p with
      | nil => rfl
      | cons c r =>
        have hnot := List.head?_dropWhile_not p cs
        have hc := h c (hd ▸ List.mem_cons_self)
        rw [hd, List.head?_cons] at hnot
        exact absurd (hc.symm.trans hnot) (by decide)
    exact List.dropWhile_eq_nil_iff.mp hdrop
  · exact fun h c hc => h c ((List.dropWhile_suffix p).subset hc)

theorem head?_strip (cs : List Char) : ∀ c ∈ (strip p cs).head?, p c = false := by
  intro c hc
  have hpre : strip p cs <+: cs.dropWhile p := by
    rw [strip, dropRight_eq_rdropWhile]
    exact List.rdropWhile_prefix p _
  obtain ⟨s, hs⟩ := hpre
  have hhead : c ∈ (cs.dropWhile p).head? := by
    rw [← hs, List.head?_append, Option.mem_def.mp hc]
    rfl
  have hnot := List.head?_dropWhile_not p cs
  rwa [Option.mem_def.mp hhead] at hnot

theorem getLast?_strip (cs : List Char) : ∀ c ∈ (strip p cs).getLast?, p c = false := by
  refine dropRight_eq_self_iff.mp ?_
  simp only [strip, dropRight_eq_rdropWhile, List.rdropWhile_idempotent]

theorem strip_strip (cs : List Char) : strip p (strip p cs) = strip p cs :=
  strip_eq_self_iff.mpr ⟨head?_strip cs, getLast?_strip cs⟩

/-- What stands between characters that go is what is left. -/
theorem strip_append_append {as m bs : List Char} (ha : ∀ c ∈ as, p c = true)
    (hb : ∀ c ∈ bs, p c = true) (hm : strip p m = m) : strip p (as ++ m ++ bs) = m := by
  obtain ⟨hhead, hlast⟩ := strip_eq_self_iff.mp hm
  cases m with
  | nil =>
    have hall : ∀ c ∈ as ++ bs, p c = true := fun c hc =>
      (List.mem_append.mp hc).elim (ha c) (hb c)
    rw [List.append_nil, strip, List.dropWhile_eq_nil_iff.mpr hall, dropRight]
  | cons c r =>
    have hc : p c = false := hhead c rfl
    have hdrop : (as ++ (c :: r) ++ bs).dropWhile p = (c :: r) ++ bs := by
      rw [List.append_assoc, List.dropWhile_append_of_pos ha, List.cons_append,
        List.dropWhile_cons_of_neg (by simp [hc])]
    have hrev : ∀ x ∈ bs.reverse, p x = true := fun x hx => hb x (List.mem_reverse.mp hx)
    rw [strip, hdrop, dropRight_eq_rdropWhile, List.rdropWhile, List.reverse_append,
      List.dropWhile_append_of_pos hrev, ← List.rdropWhile, ← dropRight_eq_rdropWhile]
    exact dropRight_eq_self_iff.mpr hlast

/-! What a function on characters does not show to the test it does not change about the ends. -/

theorem dropRight_map {f : Char → Char} (hf : ∀ c, p (f c) = p c) (cs : List Char) :
    dropRight p (cs.map f) = (dropRight p cs).map f := by
  have hcomp : p ∘ f = p := funext hf
  rw [dropRight_eq_rdropWhile, dropRight_eq_rdropWhile, List.rdropWhile, List.rdropWhile,
    ← List.map_reverse, List.dropWhile_map, hcomp, List.map_reverse]

theorem strip_map {f : Char → Char} (hf : ∀ c, p (f c) = p c) (cs : List Char) :
    strip p (cs.map f) = (strip p cs).map f := by
  have hcomp : p ∘ f = p := funext hf
  rw [strip, strip, List.dropWhile_map, hcomp, dropRight_map hf]

end Ends

theorem trim_trim (cs : List Char) : trim (trim cs) = trim cs := strip_strip cs

theorem trim_eq_nil_iff {cs : List Char} : trim cs = [] ↔ isBlankText cs = true := by
  rw [trim, strip_eq_nil_iff, isBlankText, List.all_eq_true]

/-- A text has neither blanks nor quotes. -/
def Plain (cs : List Char) : Prop := ∀ c ∈ cs, isBlank c = false ∧ c ≠ '"'

-- By name: a search for the instance could find one that tries every character there is.
instance (cs : List Char) : Decidable (Plain cs) := List.decidableBAll _ cs

theorem trim_plain {cs : List Char} (h : Plain cs) : trim cs = cs :=
  strip_eq_self_iff.mpr ⟨fun c hc => (h c (List.mem_of_mem_head? hc)).1,
    fun c hc => (h c (List.mem_of_mem_getLast? hc)).1⟩

/-! ## 2. Pieces -/

section Pieces

variable {α : Type} {p : α → Bool}

theorem cut_ne_nil (p : α → Bool) : ∀ as : List α, cut p as ≠ []
  | [] => by simp [cut]
  | a :: r => by
      rw [cut]
      split
      · simp
      · split <;> simp

/-- An element begins a piece of its own if it separates, and else joins the first piece of the
rest. -/
theorem exists_cut_cons (p : α → Bool) (a : α) (r : List α) : ∃ s rest, cut p r = s :: rest ∧
    cut p (a :: r) = if p a = true then [] :: s :: rest else (a :: s) :: rest := by
  cases hr : cut p r with
  | nil => exact absurd hr (cut_ne_nil p r)
  | cons s rest => exact ⟨s, rest, rfl, by rw [cut, hr]⟩

/-- Cutting at an element is cutting on both sides of it. -/
theorem cut_append_cons {a : α} (ha : p a = true) (bs : List α) : ∀ as : List α,
    cut p (as ++ a :: bs) = cut p as ++ cut p bs
  | [] => by
      obtain ⟨s, rest, hb, hcut⟩ := exists_cut_cons p a bs
      rw [List.nil_append, hcut, if_pos ha, hb]
      rfl
  | c :: r => by
      have ih := cut_append_cons ha bs r
      obtain ⟨s, rest, hr, hcut⟩ := exists_cut_cons p c r
      rw [hr] at ih
      rw [hcut]
      by_cases hc : p c = true <;> simp [cut, ih, hc]

theorem cut_of_forall_not : ∀ {as : List α}, (∀ a ∈ as, p a = false) → cut p as = [as]
  | [], _ => rfl
  | a :: r, h => by
      have ih : cut p r = [r] := cut_of_forall_not fun b hb => h b (List.mem_cons_of_mem a hb)
      simp [cut, ih, h a List.mem_cons_self]

/-- The pieces on both sides of a separator. -/
theorem fields_append_cons {a : α} (ha : p a = true) (as bs : List α) :
    fields p (as ++ a :: bs) = fields p as ++ fields p bs := by
  rw [fields, cut_append_cons ha, List.filter_append, ← fields, ← fields]

/-- Where nothing separates there is one piece. -/
theorem fields_of_forall_not {as : List α} (hne : as ≠ []) (h : ∀ a ∈ as, p a = false) :
    fields p as = [as] := by
  simp [fields, cut_of_forall_not h, hne]

/-- No piece has an element that separates. -/
theorem not_of_mem_cut : ∀ {as s : List α}, s ∈ cut p as → ∀ a ∈ s, p a = false
  | [], s, hs, a, ha => by
      rw [cut, List.mem_singleton] at hs
      simp [hs] at ha
  | c :: r, s, hs, a, ha => by
      obtain ⟨s', rest, hr, hcut⟩ := exists_cut_cons p c r
      have ih : ∀ {x}, x ∈ cut p r → ∀ a ∈ x, p a = false := fun hx => not_of_mem_cut hx
      rw [hr] at ih
      rw [hcut] at hs
      by_cases hc : p c = true
      · rw [if_pos hc, List.mem_cons] at hs
        rcases hs with rfl | hs
        · cases ha
        · exact ih hs a ha
      · rw [if_neg hc, List.mem_cons] at hs
        rcases hs with rfl | hs
        · rcases List.mem_cons.mp ha with rfl | ha
          · exact Bool.eq_false_iff.mpr hc
          · exact ih List.mem_cons_self a ha
        · exact ih (List.mem_cons_of_mem s' hs) a ha

theorem not_of_mem_fields {as s : List α} (h : s ∈ fields p as) : ∀ a ∈ s, p a = false :=
  not_of_mem_cut (List.mem_filter.mp h).1

theorem ne_nil_of_mem_fields {as s : List α} (h : s ∈ fields p as) : s ≠ [] := by
  have := (List.mem_filter.mp h).2
  simpa using this

/-- There is no piece where everything separates. -/
theorem fields_eq_nil_iff : ∀ {as : List α}, fields p as = [] ↔ ∀ a ∈ as, p a = true
  | [] => by simp [fields, cut]
  | a :: r => by
      have ih : fields p r = [] ↔ ∀ b ∈ r, p b = true := fields_eq_nil_iff
      obtain ⟨s, rest, hr, hcut⟩ := exists_cut_cons p a r
      rw [List.forall_mem_cons, ← ih, fields, fields, hcut, hr]
      by_cases ha : p a = true <;> simp [ha]

/-- A function on elements goes to the pieces. -/
theorem cut_map {β : Type} {p : β → Bool} (f : α → β) (as : List α) :
    cut p (as.map f) = (cut (p ∘ f) as).map (List.map f) := by
  induction as with
  | nil => rfl
  | cons a r ih =>
    obtain ⟨s, rest, hr, hcut⟩ := exists_cut_cons (p ∘ f) a r
    rw [List.map_cons, cut, ih, hr, hcut]
    by_cases ha : p (f a) = true <;> simp [ha]

/-- Where a function drops elements and keeps those that separate, the pieces are as before, less
what it drops. -/
theorem cut_filterMap {β : Type} {p : β → Bool} (f : α → Option β) (as : List α) :
    cut p (as.filterMap f) = (cut (fun a => (f a).any p) as).map (List.filterMap f) := by
  induction as with
  | nil => rfl
  | cons a r ih =>
    obtain ⟨s, rest, hr, hcut⟩ := exists_cut_cons (fun a => (f a).any p) a r
    rw [hcut, List.filterMap_cons]
    rw [hr, List.map_cons] at ih
    cases hf : f a with
    | none => simp [ih, hf]
    | some b =>
      by_cases hb : p b = true <;> simp [cut, ih, hf, hb]

theorem fields_map {β : Type} {p : β → Bool} (f : α → β) (as : List α) :
    fields p (as.map f) = (fields (p ∘ f) as).map (List.map f) := by
  rw [fields, fields, cut_map, List.filter_map]
  congr 2
  funext s
  simp

end Pieces

/-! ## 3. Joints -/

theorem join_append {sep : List Char} {ys : List (List Char)} (hy : ys ≠ []) :
    ∀ {xs : List (List Char)}, xs ≠ [] → join sep (xs ++ ys) = join sep xs ++ sep ++ join sep ys
  | [], h => absurd rfl h
  | [x], _ => by
      cases ys with
      | nil => exact absurd rfl hy
      | cons y r => simp [join]
  | x :: x' :: r, _ => by
      have ih : join sep (x' :: r ++ ys) = join sep (x' :: r) ++ sep ++ join sep ys :=
        join_append hy (List.cons_ne_nil x' r)
      simp only [List.cons_append, join, List.append_assoc] at ih ⊢
      rw [ih]

/-- All that a separator adds to joined pieces is itself. -/
theorem count_join {a c : Char} (h : a ≠ c) : ∀ ps : List (List Char),
    (join [c] ps).count a = ps.flatten.count a
  | [] => rfl
  | [p] => by simp [join]
  | p :: q :: r => by
      rw [join, List.append_assoc, List.count_append, List.singleton_append,
        List.count_cons_of_ne h.symm, count_join h (q :: r), ← List.count_append,
        ← List.flatten_cons]

theorem join_map (f : Char → Char) (sep : List Char) (ps : List (List Char)) :
    (join sep ps).map f = join (sep.map f) (ps.map (List.map f)) := by
  induction ps with
  | nil => rfl
  | cons p r ih =>
    cases r with
    | nil => rfl
    | cons q rest =>
      rw [List.map_cons] at ih
      simp only [join, List.map_append, List.map_cons, ih]

/-- What is joined by a separator is cut at it again. -/
theorem fields_join {p : Char → Bool} {c : Char} (hc : p c = true) : ∀ {ws : List (List Char)},
    (∀ w ∈ ws, w ≠ [] ∧ ∀ a ∈ w, p a = false) → fields p (join [c] ws) = ws
  | [], _ => rfl
  | [w], h => by
      obtain ⟨hne, hnot⟩ := h w List.mem_cons_self
      exact fields_of_forall_not hne hnot
  | w :: w' :: r, h => by
      obtain ⟨hne, hnot⟩ := h w List.mem_cons_self
      have ih : fields p (join [c] (w' :: r)) = w' :: r :=
        fields_join hc fun x hx => h x (List.mem_cons_of_mem w hx)
      rw [join, List.append_assoc, List.singleton_append, fields_append_cons hc,
        fields_of_forall_not hne hnot, ih, List.singleton_append]

/-- A word: a text with something in it, and no blanks. -/
def IsWord (cs : List Char) : Prop := cs ≠ [] ∧ ∀ c ∈ cs, isBlank c = false

-- By name again, for the characters.
instance (cs : List Char) : Decidable (IsWord cs) :=
  haveI := List.decidableBAll (fun c => isBlank c = false) cs
  inferInstanceAs (Decidable (_ ∧ _))

theorem isWord_of_mem_words {cs w : List Char} (h : w ∈ words cs) : IsWord w :=
  ⟨ne_nil_of_mem_fields h, not_of_mem_fields h⟩

theorem words_eq_nil_iff {cs : List Char} : words cs = [] ↔ isBlankText cs = true := by
  rw [words, fields_eq_nil_iff, isBlankText, List.all_eq_true]

theorem words_join {ws : List (List Char)} (h : ∀ w ∈ ws, IsWord w) :
    words (join [' '] ws) = ws :=
  fields_join (by decide) h

theorem words_collapse (cs : List Char) : words (collapse cs) = words cs :=
  words_join fun _ hw => isWord_of_mem_words hw

/-- Words with single spaces between them stay as they are. -/
theorem collapse_collapse (cs : List Char) : collapse (collapse cs) = collapse cs := by
  rw [collapse, words_collapse, collapse]

theorem isBlankText_collapse (cs : List Char) : isBlankText (collapse cs) = isBlankText cs := by
  rw [Bool.eq_iff_iff, ← words_eq_nil_iff, ← words_eq_nil_iff, words_collapse]

/-- A text that is joined with separators around it is a piece of its own. -/
theorem join_intersperse (sep m : List Char) : ∀ ws : List (List Char),
    join sep (ws.intersperse m) = join (sep ++ m ++ sep) ws
  | [] => rfl
  | [_] => rfl
  | [w, w'] => by simp [join]
  | w :: w' :: w'' :: r => by
      have ih : join sep ((w' :: w'' :: r).intersperse m) =
          join (sep ++ m ++ sep) (w' :: w'' :: r) := join_intersperse sep m (w' :: w'' :: r)
      simp only [List.intersperse_cons_cons, join] at ih ⊢
      rw [ih]
      simp

theorem forall_mem_intersperse {α : Type} {P : α → Prop} {m : α} (hm : P m) : ∀ {l : List α},
    (∀ x ∈ l, P x) → ∀ x ∈ l.intersperse m, P x
  | [], h => h
  | [_], h => h
  | a :: b :: r, h => by
      rw [List.intersperse_cons_cons, List.forall_mem_cons, List.forall_mem_cons]
      exact ⟨h a List.mem_cons_self, hm,
        forall_mem_intersperse hm fun x hx => h x (List.mem_cons_of_mem a hx)⟩

end Chars

namespace Text

theorem trim_eq_empty_iff {s : String} : trim s = "" ↔ isBlank s = true := by
  rw [isBlank, ← Chars.trim_eq_nil_iff, ← toList_trim, String.toList_eq_nil_iff]

theorem mem_distinct {α : Type} [BEq α] [LawfulBEq α] {x : α} : ∀ {l : List α},
    x ∈ distinct l ↔ x ∈ l
  | [] => Iff.rfl
  | a :: r => by
      rw [distinct, List.mem_cons, List.mem_cons, List.mem_filter, mem_distinct]
      by_cases hx : x = a <;> simp [hx]

/-- The distinct elements of a list, in the order in which they first occur. -/
structure Firsts {α : Type} [BEq α] (l ds : List α) : Prop where
  mem : ∀ x, x ∈ ds ↔ x ∈ l
  order : ds.Pairwise fun x y => l.idxOf x < l.idxOf y

theorem Firsts.nodup {α : Type} [BEq α] {l ds : List α} (h : Firsts l ds) : ds.Nodup := by
  refine h.order.imp fun {x y} hlt heq => ?_
  rw [heq] at hlt
  exact Nat.lt_irrefl _ hlt

/-- There is one list of them. -/
theorem Firsts.eq {α : Type} [BEq α] {l ds es : List α} (hd : Firsts l ds) (he : Firsts l es) :
    ds = es := by
  have hperm : ds.Perm es := (List.perm_ext_iff_of_nodup hd.nodup he.nodup).mpr fun x => by
    rw [hd.mem, he.mem]
  exact hperm.eq_of_pairwise (fun x y _ _ hxy hyx => absurd hxy (Nat.lt_asymm hyx)) hd.order
    he.order

theorem firsts_distinct {α : Type} [BEq α] [LawfulBEq α] : ∀ l : List α, Firsts l (distinct l)
  | [] => ⟨fun _ => Iff.rfl, .nil⟩
  | a :: r => by
      have ih := firsts_distinct r
      have hother : ∀ b ∈ (distinct r).filter fun b => !(b == a),
          (a :: r).idxOf b = r.idxOf b + 1 := by
        intro b hb
        refine List.idxOf_cons_ne r ?_
        rintro rfl
        simpa using (List.mem_filter.mp hb).2
      refine ⟨fun x => mem_distinct, List.pairwise_cons.mpr ⟨fun b hb => ?_, ?_⟩⟩
      · rw [List.idxOf_cons_self, hother b hb]
        exact Nat.succ_pos _
      · refine (ih.order.filter _).imp_of_mem fun {b c} hb hc hlt => ?_
        rw [hother b hb, hother c hc]
        exact Nat.succ_lt_succ hlt

theorem nodup_distinct {α : Type} [BEq α] [LawfulBEq α] (l : List α) : (distinct l).Nodup :=
  (firsts_distinct l).nodup

/-- A list without repeats stays as it is. -/
theorem distinct_eq_self {α : Type} [BEq α] [LawfulBEq α] : ∀ {l : List α}, l.Nodup →
    distinct l = l
  | [], _ => rfl
  | a :: r, h => by
      rw [List.nodup_cons] at h
      have hother : ∀ b ∈ r, (!(b == a)) = true := by
        intro b hb
        have hne : b ≠ a := fun heq => h.1 (heq ▸ hb)
        simpa using hne
      rw [distinct, distinct_eq_self h.2, List.filter_eq_self.mpr hother]

/-- It does not matter whether repeats or other elements are dropped first. -/
theorem distinct_filter {α : Type} [BEq α] [LawfulBEq α] (p : α → Bool) (l : List α) :
    distinct (l.filter p) = (distinct l).filter p := by
  induction l with
  | nil => rfl
  | cons a r ih =>
    by_cases ha : p a = true
    · rw [List.filter_cons_of_pos ha, distinct, distinct, ih, List.filter_cons_of_pos ha,
        List.filter_comm p]
    · have hother : ∀ b ∈ (distinct r).filter p, (!(b == a)) = true := by
        intro b hb
        have hne : b ≠ a := by
          rintro rfl
          exact ha (List.mem_filter.mp hb).2
        simpa using hne
      rw [List.filter_cons_of_neg ha, ih, distinct, List.filter_cons_of_neg ha, List.filter_comm p,
        List.filter_eq_self.mpr hother]

@[simp] theorem join_nil (sep : String) : join sep [] = "" := rfl

@[simp] theorem join_singleton (sep w : String) : join sep [w] = w := by
  simp [join, Chars.join]

@[simp] theorem join_pair (sep v w : String) : join sep [v, w] = v ++ sep ++ w := by
  apply String.toList_injective
  simp [Chars.join]

theorem join_append {sep : String} {xs ys : List String} (hx : xs ≠ []) (hy : ys ≠ []) :
    join sep (xs ++ ys) = join sep xs ++ sep ++ join sep ys := by
  apply String.toList_injective
  simp [Chars.join_append, hx, hy]

theorem join_ne_empty {sep : String} : ∀ {ws : List String}, ws ≠ [] → (∀ w ∈ ws, w ≠ "") →
    join sep ws ≠ ""
  | [], h, _ => absurd rfl h
  | [w], _, h => by
      rw [join_singleton]
      exact h w List.mem_cons_self
  | w :: w' :: r, _, h => by
      have hw := h w List.mem_cons_self
      have hw' : w.toList ≠ [] := fun hnil => hw (String.toList_eq_nil_iff.mp hnil)
      intro heq
      have := congrArg String.toList heq
      simp [Chars.join, hw'] at this

/-- Texts joined in two groups are joined together; a group without texts leaves no joint. -/
theorem join_join_append {sep : String} {xs ys : List String} (hx : ∀ w ∈ xs, w ≠ "")
    (hy : ∀ w ∈ ys, w ≠ "") :
    join sep (xs ++ ys) = join sep ([join sep xs, join sep ys].filter fun s => s != "") := by
  by_cases hxe : xs = []
  · by_cases hye : ys = []
    · simp [hxe, hye]
    · simp [hxe, join_ne_empty hye hy]
  · by_cases hye : ys = []
    · simp [hye, join_ne_empty hxe hx]
    · rw [join_append hxe hye]
      simp [join_ne_empty hxe hx, join_ne_empty hye hy]

end Text

end Recall
