/-
Recall.Proofs.Json.Writer — written values can be told apart.

A value is written on one line without a mark at its end, so what keeps two values apart has to be in
the texts themselves. The first character shows the shape of a value (`shape_eq`). A string ends at
its quote, since what stands between the quotes is JSON and denotes the string (`quoted_flatMap`), a
list or an object ends at its bracket, and an integer ends where no digit follows. So a text that
begins with a written value, with something behind it that is no digit, begins with the text of no
other value (`textAt_apart`), and values with equal texts are equal (`write_eq_iff`).

This is said of values without floating-point numbers, at any depth. What is between the items of a
list must begin with a comma, but else the layout does not matter.
-/
import Recall.Json.Writer
import Recall.Proofs.Json.Token

namespace Recall

namespace Json

/-! ## 1. Strings -/

theorem hexValue?_hexDigit : ∀ n : Fin 16, Chars.hexValue? (hexDigit n) = some n.val := by
  decide

/-- The four digits of a code unit denote it. -/
theorem hex4?_hexDigit {n : Nat} (h : n < 0x10000) :
    hex4? (hexDigit (n / 4096 % 16)) (hexDigit (n / 256 % 16)) (hexDigit (n / 16 % 16))
      (hexDigit (n % 16)) = some n := by
  have hdigit : ∀ m : Nat, Chars.hexValue? (hexDigit (m % 16)) = some (m % 16) :=
    fun m => hexValue?_hexDigit ⟨m % 16, Nat.mod_lt m (by decide)⟩
  simp only [hex4?, hdigit, Option.bind_eq_bind, Option.bind_some, Option.pure_def,
    Option.some.injEq]
  omega

/-- An escaped character denotes itself, whatever is quoted behind it. No character is half of a
surrogate pair, so its code unit does not go together with an escape that follows. -/
theorem quoted_unitEscapes (c : Char) {t s : List Symbol} (h : Quoted t s) :
    Quoted (Symbol.ofChars (unitEscapes c) ++ t) (.char c :: s) := by
  have hvalid : c.toNat < 0xD800 ∨ 0xDFFF < c.toNat ∧ c.toNat < 0x110000 := c.valid
  by_cases hone : c.toNat < 0x10000
  · have hhigh : isHighSurrogate c.toNat = false := by
      simp only [isHighSurrogate, Bool.and_eq_false_iff, decide_eq_false_iff_not]
      omega
    have hquoted := Quoted.unit (hex4?_hexDigit hone) (by simp [hhigh]) h
    rw [Symbol.ofCode_toNat] at hquoted
    simp only [unitEscapes, if_pos hone]
    exact hquoted
  · have hpair : ofSurrogates (0xD800 + (c.toNat - 0x10000) / 0x400)
        (0xDC00 + (c.toNat - 0x10000) % 0x400) = c := by
      rw [ofSurrogates]
      convert Char.ofNat_toNat c using 2
      omega
    have hquoted := Quoted.pair
      (hex4?_hexDigit (n := 0xD800 + (c.toNat - 0x10000) / 0x400) (by omega))
      (by simp only [isHighSurrogate, Bool.and_eq_true, decide_eq_true_eq]; omega)
      (hex4?_hexDigit (n := 0xDC00 + (c.toNat - 0x10000) % 0x400) (by omega))
      (by simp only [isLowSurrogate, Bool.and_eq_true, decide_eq_true_eq]; omega) h
    rw [hpair] at hquoted
    simp only [unitEscapes, if_neg hone]
    exact hquoted

theorem quoted_charText (ascii : Bool) (c : Char) {t s : List Symbol} (h : Quoted t s) :
    Quoted (Symbol.ofChars (charText ascii c) ++ t) (.char c :: s) := by
  unfold charText
  split
  · exact .letter rfl h
  · exact .letter rfl h
  · exact .letter rfl h
  · exact .letter rfl h
  · exact .letter rfl h
  · exact .letter rfl h
  · exact .letter rfl h
  · rename_i hquote hslash _ _ _ _ _
    split
    · exact quoted_unitEscapes c h
    · rename_i hplain
      refine .plain ?_ h
      simp only [isPlain, Bool.and_eq_true, bne_iff_ne, decide_eq_true_eq]
      exact ⟨⟨hquote, hslash⟩, Nat.not_lt.mp fun hlow => hplain (.inl hlow)⟩

/-- What is written between quotes denotes the characters it was written from. -/
theorem quoted_flatMap (ascii : Bool) (s : List Char) :
    Quoted (Symbol.ofChars (s.flatMap (charText ascii))) (Symbol.ofChars s) := by
  induction s with
  | nil => exact .nil
  | cons c r ih =>
    rw [List.flatMap_cons, Symbol.ofChars_append]
    exact quoted_charText ascii c ih

/-- A written string ends at its quote. -/
theorem stringText_apart {ascii : Bool} {s t : String} {r r' : List Char}
    (h : stringText ascii s ++ r = stringText ascii t ++ r') : s = t ∧ r = r' := by
  have hread : ∀ (s : String) (r : List Char),
      string 0 (Symbol.ofChars (s.toList.flatMap (charText ascii) ++ '"' :: r)) =
        .ok (Symbol.ofChars s.toList, Symbol.ofChars r) := by
    intro s r
    rw [Symbol.ofChars_append]
    exact string_found (quoted_flatMap ascii s.toList) (Symbol.ofChars r)
  simp only [stringText, List.cons_append, List.append_assoc, List.nil_append, List.cons.injEq,
    true_and] at h
  have hsame := (hread s r).symm.trans
    ((congrArg (fun cs => string 0 (Symbol.ofChars cs)) h).trans (hread t r'))
  obtain ⟨hs, hr⟩ := Prod.mk.inj (Except.ok.inj hsame)
  exact ⟨String.toList_injective (Symbol.ofChars_injective hs), Symbol.ofChars_injective hr⟩

/-! ## 2. Integers -/

theorem isAsciiDigit_of_mem_digits {n : Nat} {c : Char} (h : c ∈ Chars.digits n) :
    Chars.isAsciiDigit c = true :=
  Chars.isAsciiDigit_of_mem_padded (w := 0) (n := n) (by simpa [Chars.padded] using h)

theorem natOf_digits (n : Nat) : natOf (Chars.digits n) = n := by
  have h := Chars.ofDigits_padded 0 n
  simpa [Chars.padded, natOf] using h

/-- No digit comes next in a written text. -/
def EndsNumber (r : List Char) : Prop :=
  NoDigit (Symbol.ofChars r)

theorem endsNumber_nil : EndsNumber [] := nofun

/-- A row of digits ends where no digit follows, and it denotes one number. -/
theorem digits_apart {m n : Nat} {r r' : List Char} (hr : EndsNumber r) (hr' : EndsNumber r')
    (h : Chars.digits m ++ r = Chars.digits n ++ r') : m = n ∧ r = r' := by
  have hread : ∀ {n : Nat} {r : List Char}, EndsNumber r →
      digitRun (Symbol.ofChars (Chars.digits n ++ r)) = (Chars.digits n, Symbol.ofChars r) := by
    intro n r hr
    rw [Symbol.ofChars_append]
    exact digitRun_append (fun _ hc => isAsciiDigit_of_mem_digits hc) hr
  have hsame := (hread hr).symm.trans
    ((congrArg (fun cs => digitRun (Symbol.ofChars cs)) h).trans (hread hr'))
  obtain ⟨hdigits, hrest⟩ := Prod.mk.inj hsame
  refine ⟨?_, Symbol.ofChars_injective hrest⟩
  rw [← natOf_digits m, hdigits, natOf_digits]

theorem exists_digits_eq_cons (n : Nat) :
    ∃ c t, Chars.digits n = c :: t ∧ Chars.isAsciiDigit c = true := by
  obtain ⟨c, t, h⟩ := List.exists_cons_of_ne_nil (Nat.toDigits_ne_nil (n := n) (b := 10))
  exact ⟨c, t, h, isAsciiDigit_of_mem_digits (h ▸ List.mem_cons_self)⟩

theorem digits_ne_minus {n : Nat} {r t : List Char} : Chars.digits n ++ r ≠ '-' :: t := by
  intro h
  obtain ⟨c, t', hn, hc⟩ := exists_digits_eq_cons n
  rw [hn, List.cons_append, List.cons.injEq] at h
  rw [h.1] at hc
  exact absurd hc (by decide)

theorem intText_apart {m n : Int} {r r' : List Char} (hr : EndsNumber r) (hr' : EndsNumber r')
    (h : intText m ++ r = intText n ++ r') : m = n ∧ r = r' := by
  unfold intText at h
  by_cases hm : m < 0
  · by_cases hn : n < 0
    · rw [if_pos hm, if_pos hn] at h
      simp only [List.append_assoc, List.append_cancel_left_eq] at h
      obtain ⟨habs, rfl⟩ := digits_apart hr hr' h
      exact ⟨by omega, rfl⟩
    · rw [if_pos hm, if_neg hn] at h
      exact absurd h.symm digits_ne_minus
  · by_cases hn : n < 0
    · rw [if_neg hm, if_pos hn] at h
      exact absurd h digits_ne_minus
    · rw [if_neg hm, if_neg hn] at h
      obtain ⟨habs, rfl⟩ := digits_apart hr hr' h
      exact ⟨by omega, rfl⟩

/-! ## 3. Values -/

/-- A value that has no floating-point number in it. -/
inductive FloatFree : Json → Prop where
  | null : FloatFree .null
  | bool (b : Bool) : FloatFree (.bool b)
  | int (n : Int) : FloatFree (.int n)
  | str (s : String) : FloatFree (.str s)
  | arr {js : List Json} : (∀ j ∈ js, FloatFree j) → FloatFree (.arr js)
  | obj {ms : List (String × Json)} : (∀ m ∈ ms, FloatFree m.2) → FloatFree (.obj ms)

/-- What can be seen of a value from the first character of its text. -/
inductive Shape where
  | null
  | truth
  | number
  | string
  | list
  | object
  deriving DecidableEq

/-- The shape of a value. -/
def shape : Json → Shape
  | .null => .null
  | .bool _ => .truth
  | .int _ => .number
  | .float _ => .number
  | .str _ => .string
  | .arr _ => .list
  | .obj _ => .object

/-- The shape of the values whose text begins with a character. -/
def shapeOf? (c : Char) : Option Shape :=
  if c = 'n' then some .null
  else if c = 't' ∨ c = 'f' then some .truth
  else if c = '"' then some .string
  else if c = '[' then some .list
  else if c = '{' then some .object
  else if c = '-' ∨ Chars.isAsciiDigit c then some .number
  else none

theorem shapeOf?_digit {c : Char} (h : Chars.isAsciiDigit c = true) : shapeOf? c = some .number := by
  have hne : ∀ {d}, Chars.isAsciiDigit d = false → c ≠ d := Chars.ne_of_isAsciiDigit h
  rw [shapeOf?, if_neg (hne rfl), if_neg (not_or.mpr ⟨hne rfl, hne rfl⟩), if_neg (hne rfl),
    if_neg (hne rfl), if_neg (hne rfl), if_pos (.inr h)]

section Layouts

variable {ly : Layout}

theorem exists_textAt_eq_cons (ly : Layout) {j : Json} (h : FloatFree j) (level : Nat) :
    ∃ c t, textAt ly level j = c :: t ∧ shapeOf? c = some (shape j) := by
  cases h with
  | null => exact ⟨_, _, by rw [textAt], rfl⟩
  | bool b => cases b <;> exact ⟨_, _, by rw [textAt], rfl⟩
  | int n =>
    by_cases hn : n < 0
    · exact ⟨_, _, by rw [textAt, intText, if_pos hn]; rfl, rfl⟩
    · obtain ⟨c, t, hdigits, hc⟩ := exists_digits_eq_cons n.natAbs
      exact ⟨c, t, by rw [textAt, intText, if_neg hn, List.nil_append, hdigits], shapeOf?_digit hc⟩
  | str s => exact ⟨_, _, by rw [textAt, stringText]; rfl, rfl⟩
  | @arr js _ =>
    cases js with
    | nil => exact ⟨_, _, by rw [textAt], rfl⟩
    | cons j js => exact ⟨_, _, by rw [textAt]; rfl, rfl⟩
  | @obj ms _ =>
    cases ms with
    | nil => exact ⟨_, _, by rw [textAt], rfl⟩
    | cons m ms => exact ⟨_, _, by rw [textAt]; rfl, rfl⟩

/-- Values whose texts begin alike have the same shape. -/
theorem shape_eq {i j : Json} {level : Nat} {r r' : List Char} (hi : FloatFree i) (hj : FloatFree j)
    (h : textAt ly level i ++ r = textAt ly level j ++ r') : shape i = shape j := by
  obtain ⟨c, t, htext, hshape⟩ := exists_textAt_eq_cons ly hi level
  obtain ⟨c', t', htext', hshape'⟩ := exists_textAt_eq_cons ly hj level
  rw [htext, htext', List.cons_append, List.cons_append, List.cons.injEq] at h
  rw [h.1, hshape', Option.some.injEq] at hshape
  exact hshape.symm

/-- The texts of some items with the layout's comma between them. -/
def seriesText {α : Type} (ly : Layout) (text : α → List Char) : List α → List Char
  | [] => []
  | a :: as => text a ++ as.flatMap fun b => ly.comma ++ text b

/-- A member of an object as it is written on one line. -/
def memberText (ly : Layout) (level : Nat) (m : String × Json) : List Char :=
  stringText ly.ascii m.1 ++ (ly.colon ++ textAt ly level m.2)

theorem textAt_arr (hline : ly.indent = none) (level : Nat) (js : List Json) :
    textAt ly level (.arr js) = '[' :: (seriesText ly (textAt ly (level + 1)) js ++ [']']) := by
  have hitems : ∀ js, itemsText ly (level + 1) js =
      js.flatMap fun j => ly.comma ++ textAt ly (level + 1) j := by
    intro js
    induction js with
    | nil => rw [itemsText]; rfl
    | cons j r ih => simp [itemsText, newline, hline, ih]
  cases js with
  | nil => rw [textAt]; rfl
  | cons j r => simp [textAt, newline, hline, hitems, seriesText]

theorem textAt_obj (hline : ly.indent = none) (level : Nat) (ms : List (String × Json)) :
    textAt ly level (.obj ms) = '{' :: (seriesText ly (memberText ly (level + 1)) ms ++ ['}']) := by
  have hmembers : ∀ ms, membersText ly (level + 1) ms =
      ms.flatMap fun m => ly.comma ++ memberText ly (level + 1) m := by
    intro ms
    induction ms with
    | nil => rw [membersText]; rfl
    | cons m r ih => simp [membersText, newline, hline, ih, memberText]
  cases ms with
  | nil => rw [textAt]; rfl
  | cons m r => simp [textAt, newline, hline, hmembers, seriesText, memberText]

section Series

variable {α : Type} {text : α → List Char}

/-- Of a text that begins with one of these items and goes on with no digit, it can be seen which item
this is and where it ends. -/
def Apart (text : α → List Char) (as bs : List α) : Prop :=
  ∀ a ∈ as, ∀ b ∈ bs, ∀ r r', EndsNumber r → EndsNumber r' → text a ++ r = text b ++ r' →
    a = b ∧ r = r'

variable {close : Char} (hcomma : ly.comma.head? = some ',') (hcloses : close ≠ ',')
  (hdigit : Chars.isAsciiDigit close = false)

include hcomma in
theorem exists_flatMap_cons_eq (text : α → List Char) (a : α) (as : List α) (r : List Char) :
    ∃ t, ((a :: as).flatMap fun b => ly.comma ++ text b) ++ r = ',' :: t := by
  obtain ⟨t, ht⟩ := List.head?_eq_some_iff.mp hcomma
  exact ⟨_, by rw [List.flatMap_cons, ht, List.cons_append, List.cons_append, List.cons_append]⟩

include hcomma hdigit in
theorem endsNumber_flatMap (as : List α) (r : List Char) :
    EndsNumber ((as.flatMap fun b => ly.comma ++ text b) ++ close :: r) := by
  cases as with
  | nil => exact noDigit_char hdigit (Symbol.ofChars r)
  | cons a as =>
    obtain ⟨t, ht⟩ := exists_flatMap_cons_eq hcomma text a as (close :: r)
    rw [ht]
    exact noDigit_char rfl (Symbol.ofChars t)

include hcomma hcloses hdigit in
/-- The items behind the first, each with a comma in front, up to the closing character. -/
theorem flatMap_apart : ∀ {as bs : List α} {r r' : List Char}, Apart text as bs →
    (as.flatMap fun b => ly.comma ++ text b) ++ close :: r =
      (bs.flatMap fun b => ly.comma ++ text b) ++ close :: r' → as = bs ∧ r = r'
  | [], [], _, _, _, h => by simpa using h
  | [], b :: bs, _, r', _, h => by
      obtain ⟨t, ht⟩ := exists_flatMap_cons_eq hcomma text b bs (close :: r')
      rw [ht] at h
      exact absurd (List.cons.inj h).1 hcloses
  | a :: as, [], r, _, _, h => by
      obtain ⟨t, ht⟩ := exists_flatMap_cons_eq hcomma text a as (close :: r)
      rw [ht] at h
      exact absurd (List.cons.inj h).1.symm hcloses
  | a :: as, b :: bs, r, r', hapart, h => by
      simp only [List.flatMap_cons, List.append_assoc, List.append_cancel_left_eq] at h
      obtain ⟨rfl, hrest⟩ := hapart a List.mem_cons_self b List.mem_cons_self _ _
        (endsNumber_flatMap hcomma hdigit as r) (endsNumber_flatMap hcomma hdigit bs r') h
      have htail : Apart text as bs := fun x hx y hy =>
        hapart x (List.mem_cons_of_mem a hx) y (List.mem_cons_of_mem a hy)
      obtain ⟨rfl, rfl⟩ := flatMap_apart htail hrest
      exact ⟨rfl, rfl⟩

include hcomma hcloses hdigit in
/-- Items between brackets can be told apart if each can, and none begins with the closing bracket. -/
theorem seriesText_apart {as bs : List α} {r r' : List Char} (hapart : Apart text as bs)
    (has : ∀ a ∈ as, ∀ r t, text a ++ r ≠ close :: t)
    (hbs : ∀ b ∈ bs, ∀ r t, text b ++ r ≠ close :: t)
    (h : seriesText ly text as ++ close :: r = seriesText ly text bs ++ close :: r') :
    as = bs ∧ r = r' := by
  cases as with
  | nil =>
    cases bs with
    | nil => simpa [seriesText] using h
    | cons b bs =>
      rw [seriesText, seriesText, List.append_assoc] at h
      exact absurd h.symm (hbs b List.mem_cons_self _ _)
  | cons a as =>
    cases bs with
    | nil =>
      rw [seriesText, seriesText, List.append_assoc] at h
      exact absurd h (has a List.mem_cons_self _ _)
    | cons b bs =>
      refine flatMap_apart hcomma hcloses hdigit hapart ?_
      simpa [seriesText] using h

end Series

/-- No value begins with a character that is the first of none. -/
theorem textAt_append_ne {j : Json} (hj : FloatFree j) {c : Char} (hc : shapeOf? c = none)
    (level : Nat) (r t : List Char) : textAt ly level j ++ r ≠ c :: t := by
  intro h
  obtain ⟨d, t', htext, hshape⟩ := exists_textAt_eq_cons ly hj level
  rw [htext, List.cons_append, List.cons.injEq] at h
  rw [h.1, hc] at hshape
  cases hshape

theorem memberText_append_ne {c : Char} (hc : c ≠ '"') (level : Nat) (m : String × Json)
    (r t : List Char) : memberText ly level m ++ r ≠ c :: t := by
  intro h
  simp only [memberText, stringText, List.cons_append, List.cons.injEq] at h
  exact hc h.1.symm

variable (hline : ly.indent = none) (hcomma : ly.comma.head? = some ',')

include hline hcomma in
/-- A text that begins with a written value, with no digit behind it, shows which value this is and
where it ends. -/
theorem textAt_apart {i j : Json} (hi : FloatFree i) (hj : FloatFree j) {level : Nat}
    {r r' : List Char} (hr : EndsNumber r) (hr' : EndsNumber r')
    (h : textAt ly level i ++ r = textAt ly level j ++ r') : i = j ∧ r = r' := by
  induction hi generalizing j level r r' with
  | null =>
    have hshape := shape_eq .null hj h
    cases hj with
    | null => simpa [textAt] using h
    | _ => cases hshape
  | bool b =>
    have hshape := shape_eq (.bool b) hj h
    cases hj with
    | bool b' => cases b <;> cases b' <;> simp [textAt] at h ⊢ <;> exact h
    | _ => cases hshape
  | int n =>
    have hshape := shape_eq (.int n) hj h
    cases hj with
    | int n' =>
      rw [textAt, textAt] at h
      obtain ⟨rfl, rfl⟩ := intText_apart hr hr' h
      exact ⟨rfl, rfl⟩
    | _ => cases hshape
  | str s =>
    have hshape := shape_eq (.str s) hj h
    cases hj with
    | str s' =>
      rw [textAt, textAt] at h
      obtain ⟨rfl, rfl⟩ := stringText_apart h
      exact ⟨rfl, rfl⟩
    | _ => cases hshape
  | @arr js hjs ih =>
    have hshape := shape_eq (.arr hjs) hj h
    cases hj with
    | @arr js' hjs' =>
      have hapart : Apart (textAt ly (level + 1)) js js' :=
        fun a ha b hb r r' hr hr' h => ih a ha (hjs' b hb) hr hr' h
      rw [textAt_arr hline, textAt_arr hline] at h
      simp only [List.cons_append, List.append_assoc, List.nil_append, List.cons.injEq,
        true_and] at h
      obtain ⟨rfl, rfl⟩ := seriesText_apart hcomma (by decide) (by decide) hapart
        (fun a ha => textAt_append_ne (hjs a ha) (by decide) _)
        (fun b hb => textAt_append_ne (hjs' b hb) (by decide) _) h
      exact ⟨rfl, rfl⟩
    | _ => cases hshape
  | @obj ms hms ih =>
    have hshape := shape_eq (.obj hms) hj h
    cases hj with
    | @obj ms' hms' =>
      have hapart : Apart (memberText ly (level + 1)) ms ms' := by
        intro a ha b hb r r' hr hr' h
        simp only [memberText, List.append_assoc] at h
        obtain ⟨hkey, hvalue⟩ := stringText_apart h
        obtain ⟨hsame, rfl⟩ := ih a ha (hms' b hb) hr hr' (List.append_cancel_left hvalue)
        exact ⟨Prod.ext hkey hsame, rfl⟩
      rw [textAt_obj hline, textAt_obj hline] at h
      simp only [List.cons_append, List.append_assoc, List.nil_append, List.cons.injEq,
        true_and] at h
      obtain ⟨rfl, rfl⟩ := seriesText_apart hcomma (by decide) (by decide) hapart
        (fun a _ => memberText_append_ne (by decide) _ a)
        (fun b _ => memberText_append_ne (by decide) _ b) h
      exact ⟨rfl, rfl⟩
    | _ => cases hshape

include hline hcomma in
/-- Values are written alike on one line only if they are the same. -/
theorem write_eq_iff {i j : Json} (hi : FloatFree i) (hj : FloatFree j) :
    write ly i = write ly j ↔ i = j := by
  constructor
  · intro h
    have htext : textAt ly 0 i ++ [] = textAt ly 0 j ++ [] := by
      rw [List.append_nil, List.append_nil]
      exact String.ofList_injective h
    exact (textAt_apart hline hcomma hi hj endsNumber_nil endsNumber_nil htext).1
  · rintro rfl
    rfl

end Layouts

/-! ## 4. Whether a value can be written -/

theorem areWritableMembers_iff {ms : List (String × Json)} :
    areWritableMembers ms = true ↔ ∀ m ∈ ms, isWritable m.2 = true := by
  induction ms with
  | nil => simp [areWritableMembers]
  | cons m r ih => rw [areWritableMembers, Bool.and_eq_true, ih, List.forall_mem_cons]

theorem tryWrite_eq_ok_iff {ly : Layout} {j : Json} {text : String} :
    tryWrite ly j = .ok text ↔ isWritable j = true ∧ write ly j = text := by
  rw [tryWrite]
  split <;> simp [*]

end Json

end Recall
