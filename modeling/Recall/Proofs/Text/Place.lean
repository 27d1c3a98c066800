/-
Recall.Proofs.Text.Place — a text place by place.

What becomes of a character can depend on what stands around it. A *place* is a character of a text
together with all that stands before it and behind it, so a rule that looks around is a function of
places, and what such a rule makes of a text is read off the list of its places.

The lower case of a text is made in this way (`lower_eq_flatMap`). Of all characters only the capital
sigma looks around: it is lowered to its final form at the end of a word (`Place.EndsWord`). So a part
of a text is lowered as it would be by itself exactly if each of its capital sigmas is at the end of a
word in both or in neither (`lowerWithin_eq_iff`).
-/
import Recall.Proofs.Text.Occurs

namespace Recall

namespace Chars

/-! ## 1. Places -/

/-- A character of a text with what stands before it and behind it. -/
structure Place where
  before : List Char
  char : Char
  behind : List Char
  deriving DecidableEq, Repr

/-- The places of a text with another text in front of it. -/
def placesFrom (before : List Char) : List Char → List Place
  | [] => []
  | c :: r => ⟨before, c, r⟩ :: placesFrom (before ++ [c]) r

/-- The places of a text, in order. -/
def places (cs : List Char) : List Place :=
  placesFrom [] cs

/-- The same place in a longer text. -/
def Place.within (as bs : List Char) (p : Place) : Place :=
  ⟨as ++ p.before, p.char, p.behind ++ bs⟩

theorem placesFrom_append (bs : List Char) : ∀ as before : List Char,
    placesFrom before (as ++ bs) =
      (placesFrom before as).map (Place.within [] bs) ++ placesFrom (before ++ as) bs
  | [], before => by simp [placesFrom]
  | a :: r, before => by
      rw [List.cons_append, placesFrom, placesFrom_append bs r]
      simp [placesFrom, Place.within]

theorem placesFrom_eq_map : ∀ cs as before : List Char,
    placesFrom (as ++ before) cs = (placesFrom before cs).map (Place.within as [])
  | [], _, _ => rfl
  | c :: r, as, before => by
      rw [placesFrom, List.append_assoc, placesFrom_eq_map r as (before ++ [c])]
      simp [placesFrom, Place.within]

theorem placesFrom_eq_map_places (as cs : List Char) :
    placesFrom as cs = (places cs).map (Place.within as []) := by
  have h := placesFrom_eq_map cs as []
  rwa [List.append_nil] at h

/-- The places of a text that is put together are those of its parts, seen in it. -/
theorem places_append_append (as m bs : List Char) :
    places (as ++ m ++ bs) = (places as).map (Place.within [] (m ++ bs)) ++
      (places m).map (Place.within as bs) ++ (places bs).map (Place.within (as ++ m) []) := by
  have hm : (placesFrom as m).map (Place.within [] bs) = (places m).map (Place.within as bs) := by
    rw [placesFrom_eq_map_places, List.map_map]
    refine List.map_congr_left fun p _ => ?_
    simp [Place.within]
  rw [List.append_assoc, places, placesFrom_append, List.nil_append, placesFrom_append, hm,
    placesFrom_eq_map_places (as ++ m), ← places, ← List.append_assoc]

/-! ## 2. Lowering place by place -/

/-- Whether the text ends cased before a place. -/
def Place.followsCased (p : Place) : Bool :=
  p.before.foldl endsCased false

/-- A capital sigma would be final at this place. -/
def Place.EndsWord (p : Place) : Prop :=
  p.followsCased = true ∧ startsCased p.behind = false

instance (p : Place) : Decidable p.EndsWord :=
  inferInstanceAs (Decidable (_ ∧ _))

/-- The lower case of the character at a place. -/
def Place.lower (p : Place) : List Char :=
  lowerChar p.followsCased p.char p.behind

theorem lowerFrom_eq_flatMap : ∀ cs before : List Char,
    lowerFrom (before.foldl endsCased false) cs = (placesFrom before cs).flatMap Place.lower
  | [], _ => rfl
  | c :: r, before => by
      have ih := lowerFrom_eq_flatMap r (before ++ [c])
      rw [List.foldl_concat] at ih
      rw [lowerFrom, ih, placesFrom, List.flatMap_cons]
      rfl

/-- The lower case of a text is that of its characters, each at its place. -/
theorem lower_eq_flatMap (cs : List Char) : lower cs = (places cs).flatMap Place.lower :=
  lowerFrom_eq_flatMap cs []

/-- A place shows in the lower case of its character only if this is a capital sigma, and then by
whether a word ends there. -/
theorem Place.lower_eq_iff {p q : Place} (hchar : p.char = q.char) :
    p.lower = q.lower ↔ (p.char = 'Σ' → (p.EndsWord ↔ q.EndsWord)) := by
  unfold Place.lower lowerChar
  rw [← hchar]
  by_cases hs : p.char = 'Σ'
  · rw [if_pos hs, if_pos hs, imp_iff_right hs, EndsWord, EndsWord]
    cases p.followsCased <;> cases startsCased p.behind <;> cases q.followsCased <;>
      cases startsCased q.behind <;> decide
  · rw [if_neg hs, if_neg hs]
    exact iff_of_true rfl fun h => absurd h hs

theorem Place.length_lower (p : Place) : p.lower.length = if p.char = 'İ' then 2 else 1 :=
  length_lowerChar _ _ _

/-- What becomes of a part of a text when the whole is lowered. -/
def lowerWithin (as m bs : List Char) : List Char :=
  (places m).flatMap fun p => (p.within as bs).lower

theorem lower_append_append (as m bs : List Char) : lower (as ++ m ++ bs) =
    lowerWithin [] as (m ++ bs) ++ lowerWithin as m bs ++ lowerWithin (as ++ m) bs [] := by
  simp only [lower_eq_flatMap, places_append_append, List.flatMap_append, List.flatMap_map,
    lowerWithin]

/-- Between two texts each capital sigma of a part is at the end of a word if and only if it is in the
part by itself. -/
def KeepsSigmas (as m bs : List Char) : Prop :=
  ∀ p ∈ places m, p.char = 'Σ' → ((p.within as bs).EndsWord ↔ p.EndsWord)

-- By name: a search for the instance could find one that tries every place there is.
instance (as m bs : List Char) : Decidable (KeepsSigmas as m bs) :=
  List.decidableBAll _ _

theorem flatMap_eq_iff {α β : Type} {f g : α → List β} : ∀ {l : List α},
    (∀ a ∈ l, (f a).length = (g a).length) → (l.flatMap f = l.flatMap g ↔ ∀ a ∈ l, f a = g a)
  | [], _ => by simp
  | a :: r, h => by
      have ih : r.flatMap f = r.flatMap g ↔ ∀ b ∈ r, f b = g b :=
        flatMap_eq_iff fun b hb => h b (List.mem_cons_of_mem a hb)
      rw [List.flatMap_cons, List.flatMap_cons, List.forall_mem_cons, ← ih]
      constructor
      · exact fun heq => List.append_inj heq (h a List.mem_cons_self)
      · rintro ⟨ha, hr⟩
        rw [ha, hr]

/-- A part is lowered as by itself exactly when its capital sigmas are as by themselves. -/
theorem lowerWithin_eq_iff {as m bs : List Char} :
    lowerWithin as m bs = lower m ↔ KeepsSigmas as m bs := by
  rw [lowerWithin, lower_eq_flatMap, flatMap_eq_iff]
  · exact forall₂_congr fun p _ => Place.lower_eq_iff rfl
  · intro p _
    rw [Place.length_lower, Place.length_lower]
    rfl

example : lowerWithin [] "ΟΔΟΣ".toList "ΑΣ".toList = "οδοσ".toList ∧
    lower "ΟΔΟΣ".toList = "οδος".toList := by decide +kernel

theorem lower_infix_of_keepsSigmas {as m bs : List Char} (h : KeepsSigmas as m bs) :
    lower m <:+: lower (as ++ m ++ bs) := by
  rw [lower_append_append, lowerWithin_eq_iff.mpr h]
  exact ⟨_, _, rfl⟩

/-! ## 3. Parts that keep their sigmas -/

theorem mem_of_mem_placesFrom {p : Place} : ∀ {cs before : List Char},
    p ∈ placesFrom before cs → p.char ∈ cs
  | [], _, h => by cases h
  | c :: r, before, h => by
      rcases List.mem_cons.mp h with rfl | h
      · exact List.mem_cons_self
      · exact List.mem_cons_of_mem c (mem_of_mem_placesFrom h)

theorem keepsSigmas_of_not_mem {m : List Char} (h : 'Σ' ∉ m) (as bs : List Char) :
    KeepsSigmas as m bs := by
  intro p hp hs
  have hmem := mem_of_mem_placesFrom hp
  rw [hs] at hmem
  exact absurd hmem h

theorem endsCased_of_separates {c : Char} (h : Separates c) (before : Bool) :
    endsCased before c = false := by
  rw [endsCased, h.1, if_neg Bool.false_ne_true, h.2.1]

/-- A part that stands between blanks or the ends of a text. -/
def StandsFree (as bs : List Char) : Prop :=
  (∀ c ∈ as.getLast?, isBlank c = true) ∧ ∀ c ∈ bs.head?, isBlank c = true

theorem keepsSigmas_of_standsFree {as bs : List Char} (h : StandsFree as bs) (m : List Char) :
    KeepsSigmas as m bs := by
  have has : as.foldl endsCased false = false := by
    rcases List.eq_nil_or_concat as with rfl | ⟨r, c, rfl⟩
    · rfl
    · have hc : isBlank c = true := h.1 c (by simp)
      rw [List.concat_eq_append, List.foldl_concat, endsCased_of_separates (separates_of_isBlank hc)]
  have hbs : ∀ cs, startsCased (cs ++ bs) = startsCased cs := by
    intro cs
    cases bs with
    | nil => rw [List.append_nil]
    | cons c r => exact startsCased_append_cons (separates_of_isBlank (h.2 c rfl)) r cs
  intro p _ _
  simp only [Place.EndsWord, Place.followsCased, Place.within, List.foldl_append, has, hbs]

end Chars

end Recall
