/-
Recall.Proofs.Time.Stamp — reading a date, a clock and an ending.

A stamp is a date and a time of day with what may stand behind it: a fraction of a second of up to six
digits, and the letter for UTC or an offset. Its text is `YYYY-MM-DDThh:mm:ss`, the fraction behind a
point, and the ending. Reading goes through it piece by piece, and each piece is one lemma: a padded
number is read off the front and leaves what follows (`number?_padded`), so are the parts of a clock
(`clockFrom?_colon`, `clockFrom?_point`, `clockFrom?_last`), and a date with hyphens is as long as the
reader takes it to be (`dateLength_dateText`). The letter for UTC is first made into an offset of no
hours, and the clock before an offset is read up to the sign.

The parts of a date only have to fit in their places (`Fits`); whether there is such a day is asked
last, when all of it has been read. `parseChars?_stamp` puts the pieces together.
-/
import Recall.Proofs.Text.Chars
import Recall.Proofs.Text.Digit
import Recall.Proofs.Time.Calendar
import Recall.Time.Timestamp

namespace Recall

namespace Timestamp

open Chars (padded isAsciiDigit)

/-! ## 1. Numbers -/

theorem number?_digits {ds : List Char} (h : ∀ c ∈ ds, isAsciiDigit c = true) (r : List Char) :
    number? ds.length (ds ++ r) = some (Chars.ofDigits (ds.map fun c => c.toNat - '0'.toNat), r) := by
  have hall : ds.all isAsciiDigit = true := List.all_eq_true.mpr h
  rw [number?, List.take_left, List.drop_left, if_pos ⟨rfl, hall⟩]

/-- A padded number is read off the front. -/
theorem number?_padded {w n : Nat} (hw : 0 < w) (hn : n < 10 ^ w) (r : List Char) :
    number? w (padded w n ++ r) = some (n, r) := by
  have h := number?_digits (fun c hc => Chars.isAsciiDigit_of_mem_padded (w := w) (n := n) hc) r
  rw [Chars.length_padded hw hn, Chars.ofDigits_padded] at h
  exact h

/-! ## 2. Dates -/

/-- The written form of a date. -/
def dateText (d : Date) : List Char :=
  padded 4 d.year ++ '-' :: padded 2 d.month ++ '-' :: padded 2 d.day

/-- The parts of a date have no more than four, two and two digits. There need not be such a day. -/
def Fits (d : Date) : Prop := d.year < 10 ^ 4 ∧ d.month < 10 ^ 2 ∧ d.day < 10 ^ 2

theorem length_dateText {d : Date} (h : Fits d) : (dateText d).length = 10 := by
  obtain ⟨hy, hm, hd⟩ := h
  simp only [dateText, List.length_append, List.length_cons, Chars.length_padded (by decide) hy,
    Chars.length_padded (by decide) hm, Chars.length_padded (by decide) hd]

/-- A date is written with digits and hyphens. -/
theorem forall_mem_dateText {P : Char → Prop} (hdigit : ∀ c, isAsciiDigit c = true → P c)
    (hhyphen : P '-') (d : Date) : ∀ c ∈ dateText d, P c := by
  have hnumber := Chars.forall_mem_padded hdigit
  simp only [dateText, List.forall_mem_append, List.forall_mem_cons]
  exact ⟨⟨hnumber _ _, hhyphen, hnumber _ _⟩, hhyphen, hnumber _ _⟩

/-- The year, a hyphen and a digit are what the written form begins with. -/
theorem exists_dateText_eq {d : Date} (h : Fits d) : ∃ c cs,
    dateText d = padded 4 d.year ++ '-' :: c :: cs ∧ isAsciiDigit c = true ∧
      c :: cs = padded 2 d.month ++ '-' :: padded 2 d.day := by
  obtain ⟨c, cs, hmonth, hdigit⟩ :=
    Chars.exists_padded_eq_cons (w := 2) (by decide) h.2.1
  refine ⟨c, cs ++ '-' :: padded 2 d.day, ?_, hdigit, ?_⟩
  · simp only [dateText, hmonth, List.append_assoc, List.cons_append]
  · rw [hmonth, List.cons_append]

/-- The date is read as it stands, and then it is asked whether there is such a day. -/
theorem date?_dateText {d : Date} (h : Fits d) :
    date? (dateText d) = Date.ordinalOf? d.year d.month d.day := by
  obtain ⟨c, cs, htext, hdigit, hrest⟩ := exists_dateText_eq h
  obtain ⟨hy, hm, hd⟩ := h
  have hletter : c ≠ 'W' := Chars.ne_of_isAsciiDigit hdigit (by decide)
  have hmonth : number? 2 (c :: cs) = some (d.month, '-' :: padded 2 d.day) := by
    rw [hrest]
    exact number?_padded (by decide) hm _
  have hday : number? 2 (padded 2 d.day) = some (d.day, []) := by
    rw [← List.append_nil (padded 2 d.day)]
    exact number?_padded (by decide) hd []
  rw [htext, date?, number?_padded (by decide) hy]
  simp only [Option.bind_eq_bind, Option.bind_some]
  split
  · rename_i r heq
    cases heq
    exact absurd rfl hletter
  · rw [hmonth]
    simp only [Option.bind_some, hyphen?, hday, whole?]

/-- A hyphen behind the year and no letter for a week make a date of ten octets. -/
theorem dateLength_dateText {d : Date} (h : Fits d) (r : List Char) :
    dateLength (dateText d ++ r) = some 10 := by
  obtain ⟨c, cs, htext, hdigit, -⟩ := exists_dateText_eq h
  have hlen : (padded 4 d.year).length = 4 :=
    Chars.length_padded (by decide) h.1
  have htotal := length_dateText h
  have hletter : c ≠ 'W' := Chars.ne_of_isAsciiDigit hdigit (by decide)
  have hhyphen : (dateText d ++ r)[4]? = some '-' := by
    rw [htext, List.append_assoc, List.getElem?_append_right (by omega), hlen]
    rfl
  have hnext : (dateText d ++ r)[5]? = some c := by
    rw [htext, List.append_assoc, List.getElem?_append_right (by omega), hlen]
    rfl
  have htotal' : 10 ≤ (dateText d ++ r).length := by
    rw [List.length_append, htotal]
    omega
  simp only [dateLength, hhyphen, hnext, Option.some.injEq, hletter, if_true, if_false]
  rw [if_neg (by omega), if_neg (by omega)]

/-! ## 3. Clocks -/

/-- Up to six digits of a fraction are microseconds. -/
theorem fraction?_digits {edge : Char} {ds : List Char} (h : ∀ c ∈ ds, isAsciiDigit c = true)
    (hlen : ds.length ≤ 6) :
    fraction? edge ds =
      some (Chars.ofDigits (ds.map fun c => c.toNat - '0'.toNat) * Nat.pow 10 (6 - ds.length),
        edge != nul) := by
  have hread := number?_digits h []
  rw [List.append_nil] at hread
  simp only [fraction?, Nat.min_eq_right hlen, hread, Option.bind_eq_bind, Option.bind_some]
  rfl

/-- A number before a colon is read, and then what follows. -/
theorem clockFrom?_colon {edge : Char} {left n : Nat} {colons : Bool} {r : List Char}
    (hn : n < 10 ^ 2) (hr : r ≠ []) (hcolons : left = 2 ∨ colons = true) :
    clockFrom? edge (left + 1) colons (padded 2 n ++ ':' :: r) =
      (clockFrom? edge left true r).map fun (vs, micro, rest) => (n :: vs, micro, rest) := by
  have hlong : ¬ (':' :: r).length ≤ 1 := by
    have := List.length_pos_iff.mpr hr
    rw [List.length_cons]
    omega
  have hon : (if left = 2 then true else colons) = true := by
    split
    · rfl
    · exact hcolons.resolve_left ‹_›
  rw [clockFrom?, number?_padded (by decide) hn]
  simp only [Option.bind_eq_bind, Option.bind_some, List.headD_cons, if_neg hlong,
    beq_self_eq_true, hon, Bool.and_self, if_true, List.drop_succ_cons, List.drop_zero]
  cases clockFrom? edge left true r <;> rfl

/-- A number before a point is read, and then the fraction. -/
theorem clockFrom?_point {edge : Char} {left n : Nat} {colons : Bool} {r : List Char}
    (hn : n < 10 ^ 2) (hr : r ≠ []) :
    clockFrom? edge (left + 1) colons (padded 2 n ++ '.' :: r) =
      (fraction? edge r).map fun (micro, rest) => ([n], micro, rest) := by
  have hlong : ¬ ('.' :: r).length ≤ 1 := by
    have := List.length_pos_iff.mpr hr
    rw [List.length_cons]
    omega
  rw [clockFrom?, number?_padded (by decide) hn]
  have hcolon : ('.' == ':') = false := by decide
  simp only [Option.bind_eq_bind, Option.bind_some, List.headD_cons, if_neg hlong, hcolon,
    Bool.and_false, Bool.false_eq_true, if_false, beq_self_eq_true, Bool.true_or, if_true,
    List.drop_succ_cons, List.drop_zero]
  cases fraction? edge r <;> rfl

/-- A number at the end is read. -/
theorem clockFrom?_last {edge : Char} {left n : Nat} {colons : Bool} (hn : n < 10 ^ 2) :
    clockFrom? edge (left + 1) colons (padded 2 n) = some ([n], 0, edge != nul) := by
  have hread : number? 2 (padded 2 n) = some (n, []) := by
    rw [← List.append_nil (padded 2 n)]
    exact number?_padded (by decide) hn []
  rw [clockFrom?, hread]
  simp

/-- The digits of a fraction of a second behind a point, if there are any. -/
def fractionText : List Char → List Char
  | [] => []
  | d :: ds => '.' :: d :: ds

/-- Hours, minutes and seconds, and a fraction of a second. -/
def clockOf (h m s : Nat) (ds : List Char) : List Char :=
  padded 2 h ++ ':' :: (padded 2 m ++ ':' :: (padded 2 s ++ fractionText ds))

/-- The microseconds of a fraction of a second. -/
def microsOf (ds : List Char) : Nat :=
  Chars.ofDigits (ds.map fun c => c.toNat - '0'.toNat) * Nat.pow 10 (6 - ds.length)

theorem clock?_clockOf {edge : Char} {h m s : Nat} {ds : List Char} (hh : h < 10 ^ 2)
    (hm : m < 10 ^ 2) (hs : s < 10 ^ 2) (hdigits : ∀ c ∈ ds, isAsciiDigit c = true)
    (hlen : ds.length ≤ 6) :
    clock? edge (clockOf h m s ds) = some (⟨h, m, s, microsOf ds⟩, edge != nul) := by
  have hseconds : clockFrom? edge 1 true (padded 2 s ++ fractionText ds) =
      some ([s], microsOf ds, edge != nul) := by
    cases ds with
    | nil =>
      rw [fractionText, List.append_nil]
      exact clockFrom?_last hs
    | cons d ds =>
      rw [fractionText, clockFrom?_point hs (List.cons_ne_nil d ds), fraction?_digits hdigits hlen]
      rfl
  rw [clock?, clockOf, clockFrom?_colon hh (by simp) (Or.inl rfl),
    clockFrom?_colon hm (by simp [Chars.padded, Chars.digits]) (Or.inr rfl), hseconds]
  rfl

/-- A clock is written with digits, colons and a point. -/
theorem forall_mem_clockOf {P : Char → Prop} (hdigit : ∀ c, isAsciiDigit c = true → P c)
    (hcolon : P ':') (hpoint : P '.') (h m s : Nat) {ds : List Char}
    (hds : ∀ c ∈ ds, isAsciiDigit c = true) : ∀ c ∈ clockOf h m s ds, P c := by
  have hnumber := Chars.forall_mem_padded hdigit
  have hfraction : ∀ c ∈ fractionText ds, P c := by
    cases ds with
    | nil => simp [fractionText]
    | cons d ds => exact List.forall_mem_cons.mpr ⟨hpoint, fun c hc => hdigit c (hds c hc)⟩
  simp only [clockOf, List.forall_mem_append, List.forall_mem_cons]
  exact ⟨hnumber _ _, hcolon, hnumber _ _, hcolon, hnumber _ _, hfraction⟩

/-! ## 4. Endings -/

/-- What may stand behind a clock: nothing, the letter for UTC, or an offset with its sign. -/
inductive Zone where
  | absent
  | zulu (capital : Bool)
  | offset (negative : Bool) (hours minutes : Nat)
  deriving DecidableEq, Repr

namespace Zone

/-- The text of an ending. -/
def text : Zone → List Char
  | absent => []
  | zulu capital => [if capital then 'Z' else 'z']
  | offset negative hours minutes =>
    (if negative then '-' else '+') :: (padded 2 hours ++ ':' :: padded 2 minutes)

/-- The seconds by which an ending is ahead of UTC. -/
def seconds : Zone → Int
  | absent => 0
  | zulu _ => 0
  | offset negative hours minutes =>
    (if negative then -1 else 1) * ((hours * 3600 + minutes * 60 : Nat) : Int)

/-- An offset has two digits and two, and is less than a day. -/
def Proper : Zone → Prop
  | absent => True
  | zulu _ => True
  | offset _ hours minutes => hours < 10 ^ 2 ∧ minutes < 10 ^ 2 ∧ hours * 60 + minutes < 24 * 60

/-- The letter for UTC as an offset. -/
def spelledOut : Zone → Zone
  | zulu _ => offset false 0 0
  | z => z

/-- An offset is written with a sign, digits and a colon. -/
theorem forall_mem_text_offset {P : Char → Prop} (hdigit : ∀ c, isAsciiDigit c = true → P c)
    (hcolon : P ':') (hplus : P '+') (hminus : P '-') (negative : Bool) (h m : Nat) :
    ∀ c ∈ (offset negative h m).text, P c := by
  have hnumber := Chars.forall_mem_padded hdigit
  simp only [text, List.forall_mem_append, List.forall_mem_cons]
  refine ⟨?_, hnumber _ _, hcolon, hnumber _ _⟩
  cases negative
  · exact hplus
  · exact hminus

end Zone

theorem offset?_text (negative : Bool) {h m : Nat} (hh : h < 10 ^ 2) (hm : m < 10 ^ 2)
    (hday : h * 60 + m < 24 * 60) :
    offset? negative (padded 2 h ++ ':' :: padded 2 m) =
      some ((Zone.offset negative h m).seconds * 1000000) := by
  have hclock : clock? nul (padded 2 h ++ ':' :: padded 2 m) = some (⟨h, m, 0, 0⟩, false) := by
    rw [clock?, clockFrom?_colon hh (by simp [Chars.padded, Chars.digits]) (Or.inl rfl),
      clockFrom?_last hm]
    rfl
  rw [offset?, hclock]
  simp only [Option.bind_eq_bind, Option.bind_some, Bool.false_eq_true, if_false, Clock.micros,
    Zone.seconds]
  split
  · rename_i hzero
    simp [hzero.1, hzero.2.1]
  · rw [if_pos (by omega)]
    cases negative <;> simp <;> omega

/-! ## 5. Stamps -/

/-- A date, a time of day and an ending. -/
structure Stamp where
  date : Date
  hour : Nat
  minute : Nat
  second : Nat
  fraction : List Char
  zone : Zone
  deriving DecidableEq, Repr

namespace Stamp

/-- The clock of a stamp. -/
def clock (s : Stamp) : List Char :=
  clockOf s.hour s.minute s.second s.fraction

/-- The date and the clock of a stamp. -/
def front (s : Stamp) : List Char :=
  dateText s.date ++ 'T' :: s.clock

/-- The text of a stamp. -/
def text (s : Stamp) : List Char :=
  s.front ++ s.zone.text

/-- The seconds since midnight. -/
def seconds (s : Stamp) : Nat :=
  s.hour * 3600 + s.minute * 60 + s.second

/-- The clock shows a time of day, with no more than six digits behind the point. Of the date only the
places are filled; there need not be such a day. -/
structure Proper (s : Stamp) : Prop where
  date : Fits s.date
  hour : s.hour ≤ 23
  minute : s.minute ≤ 59
  second : s.second ≤ 59
  digits : ∀ c ∈ s.fraction, isAsciiDigit c = true
  places : s.fraction.length ≤ 6
  zone : s.zone.Proper

end Stamp

/-- The octets of an ASCII text are its characters. -/
theorem octets_of_ascii : ∀ {cs : List Char}, (∀ c ∈ cs, c.toNat < 128) → octets cs = cs
  | [], _ => rfl
  | c :: r, h => by
      have hc : c.toNat ≤ 127 := Nat.le_of_lt_succ (h c List.mem_cons_self)
      have ih : octets r = r := octets_of_ascii fun d hd => h d (List.mem_cons_of_mem c hd)
      have hone : (String.utf8EncodeChar c).map (fun b => Char.ofNat b.toNat) = [c] := by
        have hshort : String.utf8EncodeChar c = [UInt8.ofNat c.toNat] := if_pos hc
        rw [hshort, List.map_singleton, UInt8.toNat_ofNat', Nat.mod_eq_of_lt (by omega),
          Char.ofNat_toNat]
      rw [octets, List.flatMap_cons, hone, ← octets, ih, List.singleton_append]

/-- A digit, or one of the other characters between the first and the ending of a stamp. -/
def IsMark (c : Char) : Prop :=
  isAsciiDigit c = true ∨ c ∈ ['-', 'T', ':', '.', '+']

theorem IsMark.facts {c : Char} (h : IsMark c) :
    Chars.isBlank c = false ∧ c.toNat < 128 ∧ c ≠ 'Z' ∧ c ≠ 'z' := by
  rcases h with hdigit | hmark
  · have hrange := Chars.isAsciiDigit_iff.mp hdigit
    exact ⟨Chars.isBlank_of_isAsciiDigit hdigit, by omega,
      Chars.ne_of_isAsciiDigit hdigit (by decide), Chars.ne_of_isAsciiDigit hdigit (by decide)⟩
  · simp only [List.mem_cons, List.not_mem_nil, or_false] at hmark
    rcases hmark with rfl | rfl | rfl | rfl | rfl <;> decide

theorem Zone.isMark_of_mem_offset (negative : Bool) (h m : Nat) :
    ∀ c ∈ (Zone.offset negative h m).text, IsMark c :=
  Zone.forall_mem_text_offset (fun _ => .inl) (.inr (by decide)) (.inr (by decide))
    (.inr (by decide)) negative h m

theorem Zone.isMark_of_mem_spelledOut (z : Zone) : ∀ c ∈ z.spelledOut.text, IsMark c := by
  cases z with
  | absent => simp [Zone.spelledOut, Zone.text]
  | zulu capital => exact Zone.isMark_of_mem_offset _ _ _
  | offset negative h m => exact Zone.isMark_of_mem_offset _ _ _

theorem Stamp.isMark_of_mem_front {s : Stamp} (hs : s.Proper) : ∀ c ∈ s.front, IsMark c := by
  rw [Stamp.front, List.forall_mem_append, List.forall_mem_cons]
  refine ⟨forall_mem_dateText (fun _ => .inl) (.inr (by decide)) s.date, .inr (by decide), ?_⟩
  exact forall_mem_clockOf (fun _ => .inl) (.inr (by decide)) (.inr (by decide)) _ _ _ hs.digits

/-! A letter for UTC is made into an offset before anything is read. -/

theorem expandZulu_of_isMark {cs : List Char} (h : ∀ c ∈ cs, IsMark c) : expandZulu cs = cs := by
  unfold expandZulu
  split
  · rename_i c hc
    exact if_neg (by simp [(h c (List.mem_of_getLast? hc)).facts])
  · rfl

theorem expandZulu_append {front : List Char} (h : ∀ c ∈ front, IsMark c) (z : Zone) :
    expandZulu (front ++ z.text) = front ++ z.spelledOut.text := by
  cases z with
  | absent =>
    simp only [Zone.spelledOut, Zone.text, List.append_nil]
    exact expandZulu_of_isMark h
  | zulu capital =>
    simp only [expandZulu, Zone.text, List.getLast?_concat, List.dropLast_concat]
    cases capital <;> rfl
  | offset negative h' m =>
    refine expandZulu_of_isMark ?_
    rw [List.forall_mem_append]
    exact ⟨h, Zone.isMark_of_mem_offset _ _ _⟩

/-- Of blanks around it nothing is left, and in a stamp there are none. -/
theorem Stamp.trim_text {s : Stamp} (hs : s.Proper) {before after : List Char}
    (hbefore : ∀ c ∈ before, Chars.isBlank c = true) (hafter : ∀ c ∈ after, Chars.isBlank c = true) :
    Chars.trim (before ++ s.text ++ after) = s.text := by
  have hzone : ∀ c ∈ s.zone.text, Chars.isBlank c = false := by
    cases s.zone with
    | absent => simp [Zone.text]
    | zulu capital => exact List.forall_mem_singleton.mpr (by cases capital <;> decide)
    | offset negative h m => exact fun c hc => (Zone.isMark_of_mem_offset _ _ _ c hc).facts.1
  have hblank : ∀ c ∈ s.text, Chars.isBlank c = false := by
    rw [Stamp.text, List.forall_mem_append]
    exact ⟨fun c hc => (Stamp.isMark_of_mem_front hs c hc).facts.1, hzone⟩
  refine Chars.strip_append_append hbefore hafter (Chars.strip_eq_self_iff.mpr ⟨?_, ?_⟩)
  · exact fun c hc => hblank c (List.mem_of_mem_head? hc)
  · exact fun c hc => hblank c (List.mem_of_mem_getLast? hc)

/-! ## 6. Reading -/

/-- An offset, and the letter for UTC before it is spelled out, begin with the first edge. -/
theorem Zone.spelledOut_edge (z : Zone) :
    z.spelledOut.text.dropWhile (fun c => !(c == '+' || c == '-' || c == 'Z')) = z.spelledOut.text ∧
      z.spelledOut.text.takeWhile (fun c => !(c == '+' || c == '-' || c == 'Z')) = [] := by
  cases z with
  | absent => exact ⟨rfl, rfl⟩
  | zulu capital => exact ⟨rfl, rfl⟩
  | offset negative h m => cases negative <;> exact ⟨rfl, rfl⟩

/-- A clock is read up to the sign of an offset. -/
theorem time?_clockOf {h m s : Nat} {ds : List Char} (hh : h ≤ 23) (hm : m ≤ 59) (hs : s ≤ 59)
    (hdigits : ∀ c ∈ ds, isAsciiDigit c = true) (hlen : ds.length ≤ 6) {z : Zone} (hz : z.Proper) :
    time? (clockOf h m s ds ++ z.spelledOut.text) =
      some ((h * 3600 + m * 60 + s) * 1000000 + microsOf ds, z.seconds * 1000000) := by
  have hinside : ∀ c ∈ clockOf h m s ds, (!(c == '+' || c == '-' || c == 'Z')) = true := by
    refine forall_mem_clockOf (fun c hdigit => ?_) (by decide) (by decide) h m s hdigits
    have hne : ∀ d : Char, isAsciiDigit d = false → c ≠ d :=
      fun _ => Chars.ne_of_isAsciiDigit hdigit
    simp [hne '+' (by decide), hne '-' (by decide), hne 'Z' (by decide)]
  have hvalid : h ≤ 23 ∧ m ≤ 59 ∧ s ≤ 59 := ⟨hh, hm, hs⟩
  have hmicros : Clock.micros ⟨h, m, s, microsOf ds⟩ =
      (h * 3600 + m * 60 + s) * 1000000 + microsOf ds := by
    simp only [Clock.micros]
    omega
  simp only [time?, List.dropWhile_append_of_pos hinside, List.takeWhile_append_of_pos hinside,
    z.spelledOut_edge, List.append_nil, Option.bind_eq_bind, Option.bind_some,
    clock?_clockOf (show h < 10 ^ 2 by omega) (show m < 10 ^ 2 by omega) (show s < 10 ^ 2 by omega)
      hdigits hlen, hmicros, if_pos hvalid]
  -- The ending is nothing, or a sign and an offset.
  cases z with
  | absent => rfl
  | zulu capital =>
    show (offset? false (padded 2 0 ++ ':' :: padded 2 0)).bind _ = _
    rw [offset?_text false (by decide) (by decide) (by decide)]
    rfl
  | offset negative h' m' =>
    obtain ⟨hh', hm', hday⟩ := hz
    cases negative
    · show (offset? false (padded 2 h' ++ ':' :: padded 2 m')).bind _ = _
      rw [offset?_text false hh' hm' hday]
      rfl
    · show (offset? true (padded 2 h' ++ ':' :: padded 2 m')).bind _ = _
      rw [offset?_text true hh' hm' hday]
      rfl

/-- The microseconds since midnight. -/
def Stamp.micros (s : Stamp) : Nat :=
  s.seconds * 1000000 + microsOf s.fraction

/-- **A stamp is read as what it says,** if there is such a day. -/
theorem parseChars?_stamp {s : Stamp} (hs : s.Proper) {before after : List Char}
    (hbefore : ∀ c ∈ before, Chars.isBlank c = true) (hafter : ∀ c ∈ after, Chars.isBlank c = true) :
    parseChars? (before ++ s.text ++ after) =
      (Date.ordinalOf? s.date.year s.date.month s.date.day).map fun day =>
        Int.fdiv (micros day s.micros (s.zone.seconds * 1000000)) 1000 := by
  have hascii : ∀ c ∈ s.front ++ s.zone.spelledOut.text, c.toNat < 128 := by
    rw [List.forall_mem_append]
    exact ⟨fun c hc => (Stamp.isMark_of_mem_front hs c hc).facts.2.1,
      fun c hc => (Zone.isMark_of_mem_spelledOut _ c hc).facts.2.1⟩
  have hoctets : octets (expandZulu (Chars.trim (before ++ s.text ++ after))) =
      dateText s.date ++ 'T' :: (s.clock ++ s.zone.spelledOut.text) := by
    rw [Stamp.trim_text hs hbefore hafter, Stamp.text,
      expandZulu_append (Stamp.isMark_of_mem_front hs), octets_of_ascii hascii, Stamp.front,
      List.append_assoc, List.cons_append]
  have hlen := length_dateText hs.date
  have hwidth : width 'T' = 1 := rfl
  have htime := time?_clockOf hs.hour hs.minute hs.second hs.digits hs.places hs.zone
  simp only [parseChars?, hoctets, dateLength_dateText hs.date, Option.bind_eq_bind,
    Option.bind_some, List.take_left' hlen, List.drop_left' hlen, date?_dateText hs.date, hwidth,
    List.drop_succ_cons, List.drop_zero, Stamp.clock, htime]
  cases Date.ordinalOf? s.date.year s.date.month s.date.day <;> rfl

end Timestamp

end Recall
