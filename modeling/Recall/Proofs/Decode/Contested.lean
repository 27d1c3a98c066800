/-
Recall.Proofs.Decode.Contested — which member of a stored map counts when several have one key.

Keys of a stored map lose their outer blanks, so members that are apart in storage may come to stand
under one key. Of those the last one with a usable value counts (`lookup_keyed`): a member that is
read of nothing leaves the map as it is, and any other takes the place of the one before.

For notes a value is usable when it is a text that is not blank, so nothing in a map can take away a
note. For tags every value is usable, if only as no tags; there a list of tags is sure to survive as
long as nothing without tags comes behind it (`usable_survives`). Members whose key is blank stand
under no key at all. `usable_lost` has a map for each of the two.
-/
import Recall.Proofs.Decode.Keyed
import Recall.Proofs.Json.Member

namespace Recall

namespace Decode

/-! ## 1. Members under a key -/

section Reading

variable {α : Type} {usable? : Json → Option α}

/-- What a member says about a key: its value, if it stands under the key and its value is usable. -/
def valueUnder? (usable? : Json → Option α) (key : String) (m : String × Json) : Option α :=
  if Text.trim m.1 = key then usable? m.2 else none

/-- The last member under a key whose value is usable gives this value. -/
def LastUnder (usable? : Json → Option α) (members : Members) (key : String) (a : α) : Prop :=
  ∃ before m after, members = before ++ m :: after ∧ Text.trim m.1 = key ∧ usable? m.2 = some a ∧
    ∀ n ∈ after, Text.trim n.1 = key → usable? n.2 = none

/-- One member changes what is kept under its own key, and only if its value is usable. -/
theorem lookup_keepMember {key : String} (hkey : key ≠ "") (done : List (String × α))
    (m : String × Json) : (keepMember usable? done m).lookup key =
      (valueUnder? usable? key m).or (done.lookup key) := by
  rw [keepMember, valueUnder?]
  by_cases hblank : Text.isBlank m.1 = true
  · have hother : Text.trim m.1 ≠ key := by
      rw [Text.trim_eq_empty_iff.mpr hblank]
      exact hkey.symm
    rw [if_pos hblank, if_neg hother, Option.none_or]
  · rw [if_neg hblank]
    cases usable? m.2 with
    | none => simp
    | some a =>
      simp only [Json.lookup_put]
      split <;> simp

/-- What a map holds under a key is what the last member says that says anything about it. -/
theorem lookup_foldl_keepMember {key : String} (hkey : key ≠ "") (done : List (String × α))
    (members : Members) : (members.foldl (keepMember usable?) done).lookup key =
      (members.reverse.findSome? (valueUnder? usable? key)).or (done.lookup key) := by
  induction members generalizing done with
  | nil => rfl
  | cons m r ih =>
    have hlast : [m].findSome? (valueUnder? usable? key) = valueUnder? usable? key m := by
      cases h : valueUnder? usable? key m <;> simp [h]
    rw [List.foldl_cons, ih, lookup_keepMember hkey, List.reverse_cons, List.findSome?_append,
      hlast, Option.or_assoc]

theorem valueUnder?_eq_some_iff {key : String} {m : String × Json} {a : α} :
    valueUnder? usable? key m = some a ↔ Text.trim m.1 = key ∧ usable? m.2 = some a := by
  rw [valueUnder?]
  split <;> simp [*]

theorem valueUnder?_eq_none_iff {key : String} {m : String × Json} :
    valueUnder? usable? key m = none ↔ (Text.trim m.1 = key → usable? m.2 = none) := by
  rw [valueUnder?]
  split <;> simp [*]

/-- What stands behind counts before what stands in front. -/
theorem lookup_keyed_append {key : String} (hkey : key ≠ "") (before after : Members) :
    (keyed usable? (.obj (before ++ after))).lookup key =
      ((keyed usable? (.obj after)).lookup key).or ((keyed usable? (.obj before)).lookup key) := by
  simp only [keyed_obj, lookup_foldl_keepMember hkey, List.lookup_nil, Option.or_none,
    List.reverse_append, List.findSome?_append]

/-- A map holds a value under a key if the last member that counts has it. -/
theorem lookup_keyed {key : String} (hkey : key ≠ "") {members : Members} {a : α} :
    (keyed usable? (.obj members)).lookup key = some a ↔ LastUnder usable? members key a := by
  rw [keyed_obj, lookup_foldl_keepMember hkey, List.lookup_nil, Option.or_none,
    List.findSome?_eq_some_iff]
  simp only [valueUnder?_eq_some_iff, valueUnder?_eq_none_iff]
  constructor
  · rintro ⟨after, m, before, heq, ⟨hm, ha⟩, hafter⟩
    refine ⟨before.reverse, m, after.reverse, ?_, hm, ha, ?_⟩
    · simpa using congrArg List.reverse heq
    · simpa using hafter
  · rintro ⟨before, m, after, rfl, hm, ha, hafter⟩
    exact ⟨after.reverse, m, before.reverse, by simp, ⟨hm, ha⟩, by simpa using hafter⟩

/-- A map holds something under a key as soon as one member under it is usable. -/
theorem isSome_lookup_keyed {key : String} (hkey : key ≠ "") {members : Members} :
    ((keyed usable? (.obj members)).lookup key).isSome = true ↔
      ∃ m ∈ members, Text.trim m.1 = key ∧ (usable? m.2).isSome = true := by
  rw [keyed_obj, lookup_foldl_keepMember hkey, List.lookup_nil, Option.or_none,
    List.findSome?_isSome_iff]
  simp only [List.mem_reverse, valueUnder?]
  refine exists_congr fun m => and_congr_right fun _ => ?_
  split <;> simp [*]

end Reading

/-! ## 2. Notes and tags -/

/-- A value that is a note: a text that is not blank. -/
def IsNote (j : Json) : Prop :=
  ∃ s, j = .str s ∧ Text.isBlank s = false

/-- A value with a tag: a list with a text that is not blank. -/
def HasTag (j : Json) : Prop :=
  ∃ items, j = .arr items ∧ ∃ s, .str s ∈ items ∧ Text.isBlank s = false

theorem text?_eq_some_iff {j : Json} {s : String} :
    text? j = some s ↔ j = .str s ∧ Text.isBlank s = false := by
  constructor
  · intro h
    refine ⟨?_, isBlank_of_text? h⟩
    have hstr := (Option.filter_eq_some_iff.mp h).1
    cases j with
    | str t => exact congrArg Json.str (Option.some.inj hstr)
    | _ => cases hstr
  · rintro ⟨rfl, h⟩
    exact text?_str h

theorem isSome_text?_iff {j : Json} : (text? j).isSome = true ↔ IsNote j := by
  simp only [Option.isSome_iff_exists, text?_eq_some_iff, IsNote]

theorem textList_ne_nil_iff {j : Json} : textList j ≠ [] ↔ HasTag j := by
  constructor
  · intro h
    obtain ⟨tag, htag⟩ := List.exists_mem_of_ne_nil _ h
    cases j with
    | arr items =>
      obtain ⟨item, hitem, htrimmed⟩ := List.mem_filterMap.mp (Text.mem_distinct.mp htag)
      obtain ⟨s, hs, -⟩ := Option.map_eq_some_iff.mp htrimmed
      obtain ⟨rfl, hblank⟩ := text?_eq_some_iff.mp hs
      exact ⟨items, rfl, s, hitem, hblank⟩
    | _ => cases htag
  · rintro ⟨items, rfl, s, hitem, hblank⟩
    have htag : Text.trim s ∈ textList (.arr items) := by
      refine Text.mem_distinct.mpr (List.mem_filterMap.mpr ⟨.str s, hitem, ?_⟩)
      rw [trimmed?, text?_str hblank, Option.map_some]
    exact List.ne_nil_of_mem htag

/-- Tags stay when nothing without tags comes behind them under their key. -/
theorem exists_tags {key : String} (hkey : key ≠ "") {before after : Members} {m : String × Json}
    (hm : Text.trim m.1 = key) (htag : HasTag m.2)
    (hafter : ∀ n ∈ after, Text.trim n.1 = key → HasTag n.2) :
    ∃ tags, (spaceTags (.obj (before ++ m :: after))).lookup key = some tags ∧ tags ≠ [] := by
  have hread : ∀ n ∈ m :: after, Text.trim n.1 = key → textList n.2 ≠ [] := by
    intro n hn hnkey
    rcases List.mem_cons.mp hn with rfl | hn
    · exact textList_ne_nil_iff.mpr htag
    · exact textList_ne_nil_iff.mpr (hafter n hn hnkey)
  have hsome : ((spaceTags (.obj (m :: after))).lookup key).isSome = true :=
    (isSome_lookup_keyed hkey).mpr ⟨m, List.mem_cons_self, hm, rfl⟩
  obtain ⟨tags, htags⟩ := Option.isSome_iff_exists.mp hsome
  refine ⟨tags, ?_, ?_⟩
  · rw [spaceTags, lookup_keyed_append hkey, ← spaceTags, htags, Option.some_or]
  · obtain ⟨front, last, rest, heq, hlast, hvalue, -⟩ := (lookup_keyed hkey).mp htags
    rw [← Option.some.inj hvalue]
    exact hread last (by simp [heq]) hlast

/-- **Junk does not take away what is good.** Under a key that is not blank the notes hold something
exactly when some member under it is a note, whatever else stands under it and in whatever order;
what they hold is not blank, and it is the last of these notes. A list of tags that has a tag gives
tags under its key, whatever stands before it, as long as what stands behind it under the same key
has tags as well. -/
theorem usable_survives (members : Members) {key : String} (hkey : key ≠ "") :
    ((∃ note, (notes (.obj members)).lookup key = some note) ↔
      ∃ m ∈ members, Text.trim m.1 = key ∧ IsNote m.2) ∧
    (∀ note, (notes (.obj members)).lookup key = some note →
      Text.isBlank note = false ∧ ∃ before m after, members = before ++ m :: after ∧
        Text.trim m.1 = key ∧ m.2 = .str note ∧
        ∀ n ∈ after, Text.trim n.1 = key → ¬ IsNote n.2) ∧
    ∀ before m after, members = before ++ m :: after → Text.trim m.1 = key → HasTag m.2 →
      (∀ n ∈ after, Text.trim n.1 = key → HasTag n.2) →
      ∃ tags, (spaceTags (.obj members)).lookup key = some tags ∧ tags ≠ [] := by
  refine ⟨?_, ?_, ?_⟩
  · rw [← Option.isSome_iff_exists, notes, isSome_lookup_keyed hkey]
    simp only [isSome_text?_iff]
  · intro note hnote
    obtain ⟨before, m, after, heq, hm, hvalue, hafter⟩ := (lookup_keyed hkey).mp hnote
    obtain ⟨hstr, hblank⟩ := text?_eq_some_iff.mp hvalue
    refine ⟨hblank, before, m, after, heq, hm, hstr, ?_⟩
    intro n hn hnkey hnote
    rw [← isSome_text?_iff, hafter n hn hnkey] at hnote
    cases hnote
  · rintro before m after rfl hm htag hafter
    exact exists_tags hkey hm htag hafter

/-- Five members under one key: what is no note and no list stands before, between and behind. -/
def crowded : Members :=
  [("k", .str "early"), (" k", .arr [.str "a"]), ("k ", .str "late"), ("\tk", .arr [.str " b "]),
    ("k\n", .arr [.int 3, .str "b"])]

theorem usable_survives_crowded :
    "k" ≠ "" ∧ (notes (.obj crowded)).lookup "k" = some "late" ∧
      (∃ m ∈ crowded, Text.trim m.1 = "k" ∧ IsNote m.2) ∧
      (∀ n ∈ crowded.drop 4, Text.trim n.1 = "k" → HasTag n.2) ∧
      ∃ tags, (spaceTags (.obj crowded)).lookup "k" = some tags ∧ tags ≠ [] := by
  have hkey : "k" ≠ "" := by decide
  obtain ⟨hsome, -, htags⟩ := usable_survives crowded hkey
  have hnotes : (notes (.obj crowded)).lookup "k" = some "late" := by decide +kernel
  have hlast : ∀ n ∈ crowded.drop 4, Text.trim n.1 = "k" → HasTag n.2 := by
    intro n hn _
    obtain rfl := List.mem_singleton.mp hn
    exact ⟨_, rfl, "b", by simp, by decide⟩
  refine ⟨hkey, hnotes, hsome.mp ⟨"late", hnotes⟩, hlast, ?_⟩
  exact htags (crowded.take 3) ("\tk", .arr [.str " b "]) (crowded.drop 4) rfl (by decide +kernel)
    ⟨_, rfl, " b ", by simp, by decide⟩ hlast

/-- Under a blank key no note is kept, and tags may be gone once something that is no list stands
behind them. -/
theorem usable_lost :
    ¬ (∀ (members : Members) (key : String),
      (∃ m ∈ members, Text.trim m.1 = key ∧ IsNote m.2) →
        ∃ note, (notes (.obj members)).lookup key = some note ∧ Text.isBlank note = false) ∧
    ¬ (∀ (members : Members) (key : String),
      (∃ m ∈ members, Text.trim m.1 = key ∧ HasTag m.2) →
        ∃ tags, (spaceTags (.obj members)).lookup key = some tags ∧ tags ≠ []) := by
  constructor
  · intro h
    have hnote : IsNote (.str "note") := ⟨"note", rfl, by decide⟩
    obtain ⟨note, hlookup, -⟩ := h [(" ", .str "note")] ""
      ⟨(" ", .str "note"), by simp, by decide +kernel, hnote⟩
    have hnone : (notes (.obj [(" ", .str "note")])).lookup "" = none := by decide +kernel
    rw [hnone] at hlookup
    cases hlookup
  · intro h
    have htag : HasTag (.arr [.str "a"]) := ⟨_, rfl, "a", by simp, by decide⟩
    obtain ⟨tags, hlookup, hne⟩ := h [("s", .arr [.str "a"]), (" s ", .str "x")] "s"
      ⟨("s", .arr [.str "a"]), by simp, by decide +kernel, htag⟩
    have hempty : (spaceTags (.obj [("s", .arr [.str "a"]), (" s ", .str "x")])).lookup "s" =
        some [] := by decide +kernel
    exact hne (Option.some.inj (hlookup.symm.trans hempty))

end Decode

end Recall
