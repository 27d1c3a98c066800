/-
Recall.Proofs.Query.Scan — the scan of a query goes by the quotes that were counted.

Which quotes are escaped is decided twice. The count looks back from a quote to the character before
it, and the scan looks ahead from a backslash and takes it and its quote in one step. Here the scan is
followed step by step (`Turn`). Its state at a position is what the text before the position makes it:
it is inside quotes where the count so far is odd, and it has made the marks that the places before
call for (`Scan.Agrees`). One step carries this on (`Scan.Agrees.turn`), whatever of its four kinds it
is, and so a whole scan does (`Scan.Agrees.reaches`).

The scan stands at every position but that between a backslash and its quote (`exists_reaches`). At
the end it has read off the marks place by place, so the tokens are the pieces of the text between the
blanks outside quotes, less the markup: the quotes that count, and the backslashes in front of a
quote (`split_eq_pieces`).
-/
import Mathlib.Logic.Relation
import Recall.Proofs.Query.Token
import Recall.Proofs.Text.Place

namespace Recall

namespace Token

open Chars (Place)

/-! ## 1. What the count says of a place -/

/-- A blank outside quotes. -/
def isGap (p : Place) : Bool :=
  Chars.isBlank p.char && quotes p.before % 2 == 0

/-- A quote that counts, or a backslash in front of a quote. -/
def isMarkup (p : Place) : Bool :=
  p.char == '"' && p.before.getLast? != some '\\' || p.char == '\\' && p.behind.head? == some '"'

/-- What becomes of the character at a place. -/
def markAt (p : Place) : Option (Option Char) :=
  if isGap p then some none else if isMarkup p then none else some (some p.char)

/-! ## 2. The scan -/

/-- A state of the scan: the text before its position and the text from there on, whether it is inside
quotes, and the marks that it has made. -/
structure Scan where
  before : List Char
  quoted : Bool
  made : List (Option Char)
  rest : List Char
  deriving DecidableEq, Repr

/-- One step of the scan. -/
inductive Turn : Scan → Scan → Prop
  /-- A backslash and the quote behind it are taken together, and the quote stays. -/
  | escape (before : List Char) (quoted : Bool) (made : List (Option Char)) (r : List Char) :
      Turn ⟨before, quoted, made, '\\' :: '"' :: r⟩
        ⟨before ++ ['\\'] ++ ['"'], quoted, made ++ [some '"'], r⟩
  /-- Any other quote changes sides. -/
  | quote (before : List Char) (quoted : Bool) (made : List (Option Char)) (r : List Char) :
      Turn ⟨before, quoted, made, '"' :: r⟩ ⟨before ++ ['"'], !quoted, made, r⟩
  /-- A blank outside quotes is a gap. -/
  | gap (before : List Char) (made : List (Option Char)) {c : Char} (r : List Char)
      (hblank : Chars.isBlank c = true) :
      Turn ⟨before, false, made, c :: r⟩ ⟨before ++ [c], false, made ++ [none], r⟩
  /-- Any other character stays. -/
  | char (before : List Char) (quoted : Bool) (made : List (Option Char)) {c : Char}
      (r : List Char) (hquote : c ≠ '"') (hescape : c = '\\' → NoQuoteAhead r)
      (hstays : (Chars.isBlank c && !quoted) = false) :
      Turn ⟨before, quoted, made, c :: r⟩ ⟨before ++ [c], quoted, made ++ [some c], r⟩

/-- A scan of a text gets to a state. -/
def Reaches (cs : List Char) (s : Scan) : Prop :=
  Relation.ReflTransGen Turn ⟨[], false, [], cs⟩ s

/-- The places that the scan has passed. -/
def Scan.passed (s : Scan) : List Place :=
  (Chars.places s.before).map (Place.within [] s.rest)

theorem Scan.passed_concat (before : List Char) (q q' : Bool) (made made' : List (Option Char))
    (c : Char) (r : List Char) : Scan.passed ⟨before ++ [c], q', made', r⟩ =
      Scan.passed ⟨before, q, made, c :: r⟩ ++ [⟨before, c, r⟩] := by
  simp [Scan.passed, Chars.places, Chars.placesFrom_append, Chars.placesFrom, Place.within]

theorem Scan.filterMap_passed_concat (before : List Char) (q q' : Bool)
    (made made' : List (Option Char)) (c : Char) (r : List Char) :
    (Scan.passed ⟨before ++ [c], q', made', r⟩).filterMap markAt =
      (Scan.passed ⟨before, q, made, c :: r⟩).filterMap markAt ++
        (markAt ⟨before, c, r⟩).toList := by
  rw [passed_concat before q q' made, List.filterMap_append, List.filterMap_cons]
  cases markAt ⟨before, c, r⟩ <;> rfl

/-- A state in which the scan agrees with the count. -/
structure Scan.Agrees (cs : List Char) (s : Scan) : Prop where
  text : s.before ++ s.rest = cs
  quoted : s.quoted = decide (quotes s.before % 2 = 1)
  /-- The scan does not stand between a backslash and its quote. -/
  whole : s.before.getLast? = some '\\' → NoQuoteAhead s.rest
  made : s.made = s.passed.filterMap markAt
  /-- With the marks of the rest these are the marks of the text. -/
  total : s.made ++ marks s.quoted s.rest = marks false cs

namespace Scan.Agrees

variable {cs before r : List Char} {quoted : Bool} {made : List (Option Char)} {c : Char}

theorem start (cs : List Char) : Scan.Agrees cs ⟨[], false, [], cs⟩ where
  text := rfl
  quoted := rfl
  whole := by simp
  made := rfl
  total := rfl

/-- The scan sees a gap where there is one. -/
theorem isGap_eq (h : Scan.Agrees cs ⟨before, quoted, made, c :: r⟩) :
    isGap ⟨before, c, r⟩ = (Chars.isBlank c && !quoted) := by
  have hquoted : quoted = decide (quotes before % 2 = 1) := h.quoted
  rw [isGap, hquoted]
  rcases Nat.mod_two_eq_zero_or_one (quotes before) with heven | hodd
  · simp [heven]
  · simp [hodd]

/-- The agreement goes on by one character, if its place calls for the marks that are made, and the
rest is marked from there on. -/
theorem concat {quoted' : Bool} {m : List (Option Char)}
    (h : Scan.Agrees cs ⟨before, quoted, made, c :: r⟩)
    (hquoted : quoted' = decide (quotes (before ++ [c]) % 2 = 1))
    (hwhole : c = '\\' → NoQuoteAhead r) (hmade : (markAt ⟨before, c, r⟩).toList = m)
    (hmarks : marks quoted (c :: r) = m ++ marks quoted' r) :
    Scan.Agrees cs ⟨before ++ [c], quoted', made ++ m, r⟩ where
  text := by simpa using h.text
  quoted := hquoted
  whole := by simpa using hwhole
  made := by
    rw [filterMap_passed_concat before quoted quoted' made, ← h.made, hmade]
  total := by
    rw [← h.total, hmarks, List.append_assoc]

theorem escape (h : Scan.Agrees cs ⟨before, quoted, made, '\\' :: '"' :: r⟩) :
    Scan.Agrees cs ⟨before ++ ['\\'] ++ ['"'], quoted, made ++ [some '"'], r⟩ where
  text := by simpa using h.text
  quoted := by
    have hquotes : quotes (before ++ ['\\'] ++ ['"']) = quotes before := by
      rw [quotes_concat, quotes_concat_of_ne (by decide), if_neg (by simp), Nat.add_zero]
    rw [hquotes]
    exact h.quoted
  whole := by simp
  made := by
    have hbackslash : markAt ⟨before, '\\', '"' :: r⟩ = none := by
      simp [markAt, isMarkup, isGap, show Chars.isBlank '\\' = false by decide]
    have hquote : markAt ⟨before ++ ['\\'], '"', r⟩ = some (some '"') := by
      simp [markAt, isMarkup, isGap, show Chars.isBlank '"' = false by decide]
    rw [filterMap_passed_concat (before ++ ['\\']) quoted quoted made,
      filterMap_passed_concat before quoted quoted made, ← h.made, hbackslash, hquote]
    simp
  total := by
    rw [← h.total, marks, List.append_assoc, List.singleton_append]

theorem quote (h : Scan.Agrees cs ⟨before, quoted, made, '"' :: r⟩) :
    Scan.Agrees cs ⟨before ++ ['"'], !quoted, made, r⟩ := by
  have hnot : before.getLast? ≠ some '\\' := fun hesc => h.whole hesc rfl
  have hmark : markAt ⟨before, '"', r⟩ = none := by
    simp [markAt, isMarkup, isGap, hnot, show Chars.isBlank '"' = false by decide]
  have hquoted : (!quoted) = decide (quotes (before ++ ['"']) % 2 = 1) := by
    rw [quotes_concat, if_pos ⟨rfl, hnot⟩, Nat.add_comm, decide_one_add_odd, ← h.quoted]
  have hconcat := h.concat hquoted (fun heq => absurd heq (by decide)) rfl (by rw [hmark, marks_quote]; rfl)
  rwa [hmark, Option.toList_none, List.append_nil] at hconcat

theorem gap (h : Scan.Agrees cs ⟨before, false, made, c :: r⟩) (hblank : Chars.isBlank c = true) :
    Scan.Agrees cs ⟨before ++ [c], false, made ++ [none], r⟩ := by
  have hquote : c ≠ '"' := by
    rintro rfl
    exact absurd hblank (by decide)
  have hescape : c ≠ '\\' := by
    rintro rfl
    exact absurd hblank (by decide)
  refine h.concat ?_ (fun heq => absurd heq hescape) ?_ ?_
  · rw [quotes_concat_of_ne hquote]
    exact h.quoted
  · rw [markAt, h.isGap_eq, hblank]
    rfl
  · rw [marks_char hquote fun heq => absurd heq hescape]
    simp [hblank]

theorem char (h : Scan.Agrees cs ⟨before, quoted, made, c :: r⟩) (hquote : c ≠ '"')
    (hescape : c = '\\' → NoQuoteAhead r) (hstays : (Chars.isBlank c && !quoted) = false) :
    Scan.Agrees cs ⟨before ++ [c], quoted, made ++ [some c], r⟩ := by
  refine h.concat ?_ hescape ?_ ?_
  · rw [quotes_concat_of_ne hquote]
    exact h.quoted
  · have hmarkup : isMarkup ⟨before, c, r⟩ = false := by
      simpa [isMarkup, hquote, NoQuoteAhead] using hescape
    rw [markAt, h.isGap_eq, hstays, hmarkup]
    rfl
  · rw [marks_char hquote hescape, hstays]
    rfl

/-- A step carries the agreement on. -/
theorem turn {s t : Scan} (h : Scan.Agrees cs s) (hturn : Turn s t) : Scan.Agrees cs t := by
  cases hturn with
  | escape => exact h.escape
  | quote => exact h.quote
  | gap _ _ _ hblank => exact h.gap hblank
  | char _ _ _ _ hquote hescape hstays => exact h.char hquote hescape hstays

theorem reaches {s : Scan} (h : Reaches cs s) : Scan.Agrees cs s := by
  induction h with
  | refl => exact start cs
  | tail _ hturn ih => exact ih.turn hturn

end Scan.Agrees

/-! ## 3. Where the scan stands -/

/-- A step takes one character, unless it is a backslash with its quote behind it. -/
theorem exists_turn (before : List Char) (quoted : Bool) (made : List (Option Char)) {c : Char}
    {r : List Char} (hescape : c = '\\' → NoQuoteAhead r) :
    ∃ q m, Turn ⟨before, quoted, made, c :: r⟩ ⟨before ++ [c], q, m, r⟩ := by
  by_cases hquote : c = '"'
  · subst hquote
    exact ⟨_, _, .quote before quoted made r⟩
  · by_cases hstays : (Chars.isBlank c && !quoted) = false
    · exact ⟨_, _, .char before quoted made r hquote hescape hstays⟩
    · obtain ⟨hblank, rfl⟩ : Chars.isBlank c = true ∧ quoted = false := by simpa using hstays
      exact ⟨_, _, .gap before made r hblank⟩

/-- The scan gets to every position but that between a backslash and its quote. -/
theorem exists_reaches {cs a b : List Char} (h : a ++ b = cs)
    (hwhole : a.getLast? = some '\\' → NoQuoteAhead b) :
    ∃ q m, Reaches cs ⟨a, q, m, b⟩ := by
  induction hn : a.length using Nat.strong_induction_on generalizing a b with
  | _ n ih =>
    rcases List.eq_nil_or_concat a with rfl | ⟨a', c, rfl⟩
    · rw [← h]
      exact ⟨_, _, .refl⟩
    · rw [List.concat_eq_append] at h hwhole hn ⊢
      rw [List.length_append, List.length_singleton] at hn
      by_cases hmid : a'.getLast? = some '\\' ∧ c = '"'
      · -- One step back the scan would stand inside an escape. It comes from two steps back.
        obtain ⟨hlast, rfl⟩ := hmid
        obtain ⟨a'', rfl⟩ := List.getLast?_eq_some_iff.mp hlast
        rw [List.length_append, List.length_singleton] at hn
        obtain ⟨q, m, hs⟩ := ih a''.length (by omega) (b := '\\' :: '"' :: b) (by simpa using h)
          (fun _ => by simp [NoQuoteAhead]) rfl
        exact ⟨_, _, hs.tail (.escape a'' q m b)⟩
      · obtain ⟨q, m, hs⟩ := ih a'.length (by omega) (b := c :: b) (by simpa using h)
          (fun hlast => by simpa [NoQuoteAhead] using fun hc => hmid ⟨hlast, hc⟩) rfl
        obtain ⟨q', m', hturn⟩ := exists_turn a' q m (by simpa using hwhole)
        exact ⟨q', m', hs.tail hturn⟩

/-! ## 4. Pieces -/

/-- The characters of a piece that are not markup. -/
def kept (piece : List Place) : List Char :=
  (piece.filter fun p => !isMarkup p).map Place.char

/-- What is left of the pieces of a text between its gaps, if anything is. -/
def pieces (cs : List Char) : List (List Char) :=
  ((Chars.cut isGap (Chars.places cs)).map kept).filter fun piece => !piece.isEmpty

theorem marks_eq_filterMap (cs : List Char) :
    marks false cs = (Chars.places cs).filterMap markAt := by
  obtain ⟨q, m, hs⟩ := exists_reaches (List.append_nil cs) (by simp [NoQuoteAhead])
  have h := Scan.Agrees.reaches hs
  have hpassed : Scan.passed ⟨cs, q, m, []⟩ = Chars.places cs :=
    (Chars.placesFrom_eq_map_places [] cs).symm
  rw [← h.total, h.made, hpassed, marks, List.append_nil]

/-- Without gaps the marks are the characters that are kept. -/
theorem filterMap_markAt {piece : List Place} (h : ∀ p ∈ piece, isGap p = false) :
    piece.filterMap markAt = (kept piece).map some := by
  rw [kept, List.map_map, ← List.filterMap_eq_map, List.filterMap_filter]
  refine List.filterMap_congr fun p hp => ?_
  rw [markAt, h p hp]
  cases isMarkup p <;> rfl

/-- A query whose quotes are even in number is cut at the blanks outside quotes, and loses its
markup. -/
theorem split_eq_pieces {cs : List Char} (heven : quotes cs % 2 = 0) : split cs = pieces cs := by
  have hgap : (fun p => (markAt p).any Option.isNone) = isGap := by
    funext p
    rw [markAt]
    cases isGap p <;> cases isMarkup p <;> rfl
  have hmarks : ∀ piece ∈ Chars.cut isGap (Chars.places cs),
      piece.filterMap markAt = (kept piece).map some :=
    fun piece hpiece => filterMap_markAt (Chars.not_of_mem_cut hpiece)
  have hempty : (fun s : List (Option Char) => !s.isEmpty) ∘ (fun piece => (kept piece).map some) =
      (fun s => !s.isEmpty) ∘ kept := by
    funext piece
    simp
  rw [split_of_even heven, marks_eq_filterMap, Chars.fields, Chars.cut_filterMap, hgap,
    List.map_congr_left hmarks, pieces, List.filter_map, List.filter_map, List.map_map, hempty]
  refine List.map_congr_left fun piece _ => ?_
  rw [Function.comp_apply, filterMap_id_map_some]

/-! ## 5. The scan and the count -/

/-- At every position the scan stands, or else at the backslash whose quote is next; and it is inside
quotes if the count up to there is odd. -/
theorem exists_reaches_quoted {cs a b : List Char} (h : a ++ b = cs) : ∃ s, Reaches cs s ∧
    (s.before = a ∨ s.before ++ ['\\'] = a ∧ b.head? = some '"') ∧
    (s.quoted = true ↔ quotes a % 2 = 1) := by
  by_cases hmid : a.getLast? = some '\\' ∧ b.head? = some '"'
  · obtain ⟨hlast, hnext⟩ := hmid
    obtain ⟨a', rfl⟩ := List.getLast?_eq_some_iff.mp hlast
    obtain ⟨q, m, hs⟩ := exists_reaches (a := a') (b := '\\' :: b) (by simpa using h)
      (fun _ => by simp [NoQuoteAhead])
    refine ⟨_, hs, .inr ⟨rfl, hnext⟩, ?_⟩
    rw [(Scan.Agrees.reaches hs).quoted, decide_eq_true_iff, quotes_concat_of_ne (by decide)]
  · obtain ⟨q, m, hs⟩ := exists_reaches h fun hlast hnext => hmid ⟨hlast, hnext⟩
    refine ⟨_, hs, .inl rfl, ?_⟩
    rw [(Scan.Agrees.reaches hs).quoted, decide_eq_true_iff]

/-- **The scan follows the count.** Let the quotes of a query that count be even in number. The scan of
the query is inside quotes at a position exactly when the quotes that count before it are odd in
number; in the middle of an escape that is its state in front of the backslash. It gets to the end, and
is outside quotes there, with the marks that the query is read into. The tokens are what is left of the
pieces between the blanks outside quotes when the quotes that count and the backslashes in front of a
quote have gone, if anything is. Without any quote they are the words. -/
theorem scan_follows_count :
    (∀ raw : String, Balanced raw →
      (∀ s, Reaches raw.toList s → s.before ++ s.rest = raw.toList ∧
        (s.quoted = true ↔ quotes s.before % 2 = 1) ∧
        s.made ++ marks s.quoted s.rest = marks false raw.toList) ∧
      (∀ a b, a ++ b = raw.toList → ∃ s, Reaches raw.toList s ∧
        (s.before = a ∨ s.before ++ ['\\'] = a ∧ b.head? = some '"') ∧
        (s.quoted = true ↔ quotes a % 2 = 1)) ∧
      (∃ s, Reaches raw.toList s ∧ s.rest = []) ∧
      (∀ s, Reaches raw.toList s → s.rest = [] →
        s.quoted = false ∧ s.made = marks false raw.toList) ∧
      tokens raw = (pieces raw.toList).map String.ofList) ∧
    ∀ raw : String, '"' ∉ raw.toList → tokens raw = Text.words raw := by
  constructor
  · intro raw hbalanced
    refine ⟨?_, fun a b => exists_reaches_quoted, ?_, ?_, ?_⟩
    · intro s hs
      have h := Scan.Agrees.reaches hs
      exact ⟨h.text, by rw [h.quoted, decide_eq_true_iff], h.total⟩
    · obtain ⟨q, m, hs⟩ := exists_reaches (List.append_nil raw.toList) (by simp [NoQuoteAhead])
      exact ⟨_, hs, rfl⟩
    · intro s hs hend
      have h := Scan.Agrees.reaches hs
      have htext : s.before = raw.toList := by
        rw [← h.text, hend, List.append_nil]
      have heven : quotes raw.toList % 2 = 0 := hbalanced
      have htotal := h.total
      rw [hend, marks, List.append_nil] at htotal
      exact ⟨by rw [h.quoted, htext, heven]; rfl, htotal⟩
    · rw [tokens, split_eq_pieces hbalanced]
  · intro raw hquote
    rw [tokens, split_unquoted hquote, Text.words]

/-- An opening quote at the start, an escaped quote behind two backslashes, a quote that closes inside
a token, an empty token, and a backslash at the end. -/
def knottyQuery : String := "\"a \\\\\" b\"c \"\" \\\"d\\"

theorem scan_follows_count_knottyQuery :
    Balanced knottyQuery ∧ tokens knottyQuery = ["a \\\" bc", "\"d\\"] ∧
      (∃ s, Reaches knottyQuery.toList s ∧ s.before = "\"a \\".toList ∧ s.quoted = true) ∧
      (∃ s, Reaches knottyQuery.toList s ∧ s.rest = []) ∧
      tokens "deep\u2003work \\" = ["deep", "work", "\\"] := by
  have hbalanced : Balanced knottyQuery := by decide +kernel
  obtain ⟨-, hinside, hend, -, htokens⟩ := scan_follows_count.1 knottyQuery hbalanced
  refine ⟨hbalanced, ?_, ?_, hend, ?_⟩
  · rw [htokens]
    decide +kernel
  · obtain ⟨s, hs, hstands, hquoted⟩ :=
      hinside "\"a \\".toList "\\\" b\"c \"\" \\\"d\\".toList (by decide)
    refine ⟨s, hs, ?_, hquoted.mpr (by decide)⟩
    exact hstands.resolve_right fun h => absurd h.2 (by decide)
  · rw [scan_follows_count.2 _ (by decide)]
    decide +kernel

end Token

end Recall
