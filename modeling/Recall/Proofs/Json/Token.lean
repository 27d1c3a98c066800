/-
Recall.Proofs.Json.Token — the reader of strings, numbers and words against the grammar.

`Gives P O x` is a postcondition of a reader: what it reads and what it leaves are related by `P`,
and an error meets `O`. `Reads rd Item Off Over` is what it means for a reader to read the items of a
grammar. What it gives is accounted for, a value by a piece in front that is an item with this value
and an error by `Off`; and it misses nothing, since an item is read or refused for a limit wherever
something follows that may follow a value, and a text that passes a limit, as `Over` says, is refused.

Only numbers make the rest matter: their digits are read as far as they go, so a number is read
whole only where it does not go on (`Continues`).
-/
import Mathlib.Data.List.TakeWhile
import Recall.Proofs.Json.Grammar
import Recall.Proofs.Text.Digit
import Recall.Proofs.Text.Symbol

namespace Recall

namespace Json

/-! ## 1. Readers -/

/-- What may stand behind a value: a blank, a comma, a closing bracket or nothing. -/
def Ends (r : List Symbol) : Prop :=
  ∀ c ∈ r.head?, isSpace c = true ∨ c = .char ',' ∨ c = .char ']' ∨ c = .char '}'

/-- A limit keeps the text from being read. -/
def Refused {α : Type} (x : Except ReadError α) : Prop :=
  ∃ l, x = .error (.limit l)

section Gives

variable {α β : Type}

/-- What is read and what is left are related, and an error meets a condition. -/
def Gives (P : α → List Symbol → Prop) (O : ReadError → Prop) :
    Except ReadError (α × List Symbol) → Prop
  | .ok (a, r) => P a r
  | .error e => O e

theorem Gives.bind {P : α → List Symbol → Prop} {Q : β → List Symbol → Prop}
    {O O' : ReadError → Prop} {x : Except ReadError (α × List Symbol)}
    {f : α × List Symbol → Except ReadError (β × List Symbol)} (hx : Gives P O x)
    (hf : ∀ a r, P a r → Gives Q O' (f (a, r))) (ho : ∀ e, O e → O' e) : Gives Q O' (x >>= f) := by
  cases x with
  | error e => exact ho e hx
  | ok read => exact hf read.1 read.2 hx

theorem Gives.imp {P Q : α → List Symbol → Prop} {O O' : ReadError → Prop}
    {x : Except ReadError (α × List Symbol)} (hx : Gives P O x) (hp : ∀ a r, P a r → Q a r)
    (ho : ∀ e, O e → O' e) : Gives Q O' x := by
  cases x with
  | error e => exact ho e hx
  | ok read => exact hp read.1 read.2 hx

theorem not_refused_ok (a : α) : ¬ Refused (.ok a : Except ReadError α) := by
  rintro ⟨l, h⟩
  cases h

theorem Refused.bind {x : Except ReadError α} {f : α → Except ReadError β} (h : Refused x) :
    Refused (x >>= f) := by
  obtain ⟨l, rfl⟩ := h
  exact ⟨l, rfl⟩

theorem Refused.map {x : Except ReadError α} {f : α → β} (h : Refused x) : Refused (x.map f) := by
  obtain ⟨l, rfl⟩ := h
  exact ⟨l, rfl⟩

/-- A reader reads the items of a grammar and refuses what passes a limit. -/
structure Reads (rd : Reader α) (Item : List Symbol → α → Prop)
    (Off : ReadError → List Symbol → Prop) (Over : Limit → List Symbol → Prop) : Prop where
  gives : ∀ cs, Gives (fun a r => ∃ t, cs = t ++ r ∧ Item t a) (Off · cs) (rd cs)
  found : ∀ {t a r}, Item t a → Ends r → rd (t ++ r) = .ok (a, r) ∨ Refused (rd (t ++ r))
  refused : ∀ {l cs}, Over l cs → Refused (rd cs)

end Gives

/-! ## 2. Strings -/

section Strings

variable {left : Nat}

theorem unit_gives (cs : List Symbol) :
    Gives (fun n r => ∃ a b c d,
        cs = .char a :: .char b :: .char c :: .char d :: r ∧ hex4? a b c d = some n)
      (· = .malformed left) (unit left cs) := by
  unfold unit
  split
  · rename_i a b c d r
    split
    · rename_i n hn
      exact ⟨a, b, c, d, rfl, hn⟩
    · exact rfl
  · exact rfl

theorem unit_hex {a b c d : Char} {n : Nat} (h : hex4? a b c d = some n) (r : List Symbol) :
    unit left (.char a :: .char b :: .char c :: .char d :: r) = .ok (n, r) := by
  rw [unit, h]

/-- Behind a code unit its other half is read, or nothing if no other half comes next. -/
theorem pairUp_gives (n : Nat) (r : List Symbol) :
    Gives (fun s r' => r' = r ∧ s = .ofCode n ∧ (isHighSurrogate n = true → ¬ StartsLow r) ∨
      ∃ a b c d m, r = escape a b c d r' ∧ hex4? a b c d = some m ∧
        isHighSurrogate n = true ∧ isLowSurrogate m = true ∧ s = .char (ofSurrogates n m))
      (· = .malformed left) (pairUp left n r) := by
  unfold pairUp
  split
  · rename_i r' hhigh
    refine (unit_gives r').bind ?_ (fun _ h => h)
    rintro m r'' ⟨a, b, c, d, rfl, hm⟩
    by_cases hlow : isLowSurrogate m = true
    · simp only [hlow, if_true]
      exact Or.inr ⟨a, b, c, d, m, rfl, hm, hhigh, hlow, rfl⟩
    · simp only [hlow]
      refine Or.inl ⟨rfl, rfl, ?_⟩
      rintro - ⟨a', b', c', d', m', rest, heq, hm', hlow'⟩
      simp only [List.cons.injEq, Symbol.char.injEq, true_and] at heq
      obtain ⟨rfl, rfl, rfl, rfl, -⟩ := heq
      rw [hm, Option.some.injEq] at hm'
      exact hlow (hm' ▸ hlow')
  · rename_i hno
    refine Or.inl ⟨rfl, rfl, ?_⟩
    rintro hhigh ⟨a, b, c, d, m, rest, rfl, -⟩
    exact hno _ hhigh rfl

theorem stringBody_gives (fuel : Nat) (cs : List Symbol) :
    Gives (fun s r => ∃ t, cs = t ++ .char '"' :: r ∧ Quoted t s) (· = .malformed left)
      (stringBody left fuel cs) := by
  induction fuel generalizing cs with
  | zero => exact rfl
  | succ fuel ih =>
    unfold stringBody
    split
    · exact rfl
    · exact ⟨[], rfl, .nil⟩
    · rename_i r
      refine (unit_gives r).bind ?_ (fun _ h => h)
      rintro n r ⟨a, b, c, d, rfl, hn⟩
      refine (pairUp_gives n r).bind ?_ (fun _ h => h)
      intro s r' hpair
      refine (ih r').bind ?_ (fun _ h => h)
      rintro s' r'' ⟨t, rfl, hq⟩
      rcases hpair with ⟨rfl, rfl, hlow⟩ | ⟨a', b', c', d', m, hr, hm, hhigh, hlow, hs⟩
      · refine ⟨escape a b c d t, rfl, .unit hn ?_ hq⟩
        rintro hhigh ⟨a', b', c', d', m, rest, rfl, hm, hl⟩
        exact hlow hhigh ⟨a', b', c', d', m, rest ++ .char '"' :: r'', rfl, hm, hl⟩
      · rw [hr, hs]
        exact ⟨escape a b c d (escape a' b' c' d' t), rfl, .pair hn hhigh hm hlow hq⟩
    · rename_i e r _
      split
      · exact rfl
      · rename_i c hc
        refine (ih r).bind ?_ (fun _ h => h)
        rintro s r' ⟨t, rfl, hq⟩
        exact ⟨.char '\\' :: .char e :: t, rfl, .letter hc hq⟩
    · rename_i c r _ _ _
      split
      · rename_i hplain
        refine (ih r).bind ?_ (fun _ h => h)
        rintro s r' ⟨t, rfl, hq⟩
        exact ⟨c :: t, rfl, .plain hplain hq⟩
      · exact rfl

/-- A code unit without its other half behind it is read alone. The rest is a text between quotes,
so what comes behind the quote cannot be taken for that half. -/
theorem pairUp_of_quoted {n : Nat} {t s : List Symbol} (hq : Quoted t s)
    (hlow : isHighSurrogate n = true → ¬ StartsLow t) (r : List Symbol) :
    pairUp left n (t ++ .char '"' :: r) = .ok (.ofCode n, t ++ .char '"' :: r) := by
  unfold pairUp
  split
  · rename_i r' hhigh heq
    have hunit : ∀ {a b c d : Char} {m : Nat} {t' : List Symbol},
        t = escape a b c d t' → hex4? a b c d = some m →
        r' = .char a :: .char b :: .char c :: .char d :: (t' ++ .char '"' :: r) ∧
          isLowSurrogate m = false := by
      rintro a b c d m t' rfl hm
      simp only [List.cons_append, List.cons.injEq, true_and] at heq
      refine ⟨heq.symm, ?_⟩
      rw [Bool.eq_false_iff]
      exact fun hl => hlow hhigh ⟨a, b, c, d, m, t', rfl, hm, hl⟩
    cases hq with
    | nil => simp at heq
    | plain hplain =>
      rw [(List.cons.inj heq).1] at hplain
      exact absurd hplain (by decide)
    | letter he =>
      simp only [List.cons_append, List.cons.injEq, Symbol.char.injEq, true_and] at heq
      rw [heq.1] at he
      cases he
    | unit hm _ _ =>
      obtain ⟨rfl, hnot⟩ := hunit rfl hm
      simp [unit_hex hm, hnot, bind, Except.bind]
    | pair hm _ _ _ _ =>
      obtain ⟨rfl, hnot⟩ := hunit rfl hm
      simp [unit_hex hm, hnot, bind, Except.bind]
  · rfl

theorem pairUp_of_pair {a b c d : Char} {n m : Nat} (hhigh : isHighSurrogate n = true)
    (hm : hex4? a b c d = some m) (hlow : isLowSurrogate m = true) (r : List Symbol) :
    pairUp left n (escape a b c d r) = .ok (.char (ofSurrogates n m), r) := by
  simp [pairUp, hhigh, unit_hex hm, hlow, bind, Except.bind]

theorem stringBody_plain {c : Symbol} (h : isPlain c = true) (fuel : Nat) (r : List Symbol) :
    stringBody left (fuel + 1) (c :: r) = (stringBody left fuel r).map fun (s, r) => (c :: s, r) := by
  have hne : ∀ {d}, isPlain d = false → c ≠ d := by
    rintro d hd rfl
    rw [h] at hd
    cases hd
  rw [stringBody, if_pos h]
  · cases stringBody left fuel r <;> rfl
  · exact hne rfl
  · exact fun _ heq => absurd heq (hne rfl)
  · exact fun _ _ heq => absurd heq (hne rfl)

theorem stringBody_letter {e c : Char} (h : escaped? e = some c) (fuel : Nat) (r : List Symbol) :
    stringBody left (fuel + 1) (.char '\\' :: .char e :: r) =
      (stringBody left fuel r).map fun (s, r) => (.char c :: s, r) := by
  have hu : e ≠ 'u' := by
    rintro rfl
    cases h
  rw [stringBody, h]
  · cases stringBody left fuel r <;> rfl
  · exact hu

theorem stringBody_unit {a b c d : Char} {n : Nat} (h : hex4? a b c d = some n) (fuel : Nat)
    (r : List Symbol) : stringBody left (fuel + 1) (escape a b c d r) = (pairUp left n r).bind
      fun (s, r) => (stringBody left fuel r).map fun (s', r) => (s :: s', r) := by
  rw [stringBody, unit_hex h]
  simp only [bind, Except.bind]
  cases pairUp left n r with
  | error e => rfl
  | ok read =>
    obtain ⟨s, r⟩ := read
    cases hs : stringBody left fuel r <;> simp [hs, Except.map, pure, Except.pure]

/-- A text between quotes is read to its end with any fuel beyond its length. -/
theorem stringBody_found {fuel : Nat} {t s : List Symbol} (hq : Quoted t s) (hfuel : t.length < fuel)
    (r : List Symbol) : stringBody left fuel (t ++ .char '"' :: r) = .ok (s, r) := by
  induction fuel generalizing t s with
  | zero => cases hfuel
  | succ fuel ih =>
    cases hq with
    | nil => rfl
    | plain hplain hq =>
      rw [List.length_cons] at hfuel
      rw [List.cons_append, stringBody_plain hplain, ih hq (by omega)]
      rfl
    | letter he hq =>
      simp only [List.length_cons] at hfuel
      rw [List.cons_append, List.cons_append, stringBody_letter he, ih hq (by omega)]
      rfl
    | unit hn hlow hq =>
      simp only [List.length_cons] at hfuel
      simp only [List.cons_append]
      simp only [stringBody_unit hn, pairUp_of_quoted hq hlow, Except.bind, ih hq (by omega)]
      rfl
    | pair hn hhigh hm hlow hq =>
      simp only [List.length_cons] at hfuel
      simp only [List.cons_append]
      simp only [stringBody_unit hn, pairUp_of_pair hhigh hm hlow, Except.bind,
        ih hq (by omega)]
      rfl

theorem string_gives (cs : List Symbol) :
    Gives (fun s r => ∃ t, cs = t ++ .char '"' :: r ∧ Quoted t s) (· = .malformed left)
      (string left cs) :=
  stringBody_gives _ cs

theorem string_found {t s : List Symbol} (hq : Quoted t s) (r : List Symbol) :
    string left (t ++ .char '"' :: r) = .ok (s, r) := by
  refine stringBody_found hq ?_ r
  rw [List.length_append]
  omega

end Strings

/-! ## 3. Digits, points and exponents -/

/-- No digit comes next. -/
def NoDigit (r : List Symbol) : Prop :=
  ∀ c t, r = .char c :: t → Chars.isAsciiDigit c = false

theorem noDigit_char {c : Char} (h : Chars.isAsciiDigit c = false) (r : List Symbol) :
    NoDigit (.char c :: r) := by
  rintro c' t heq
  obtain rfl := Symbol.char.inj (List.cons.inj heq).1
  exact h

theorem sign_digit {c : Char} (hc : Chars.isAsciiDigit c = true) (r : List Symbol) :
    sign (.char c :: r) = (false, .char c :: r) := by
  unfold sign
  split
  · rename_i heq
    obtain rfl := Symbol.char.inj (List.cons.inj heq).1
    cases hc
  · rename_i heq
    obtain rfl := Symbol.char.inj (List.cons.inj heq).1
    cases hc
  · rfl

/-- No point with a digit comes next. -/
def NoPoint (r : List Symbol) : Prop :=
  ∀ t, r = .char '.' :: t → NoDigit t

/-- No exponent comes next. -/
def NoExponent (r : List Symbol) : Prop :=
  ∀ e t, r = .char e :: t → e = 'e' ∨ e = 'E' → NoDigit (sign t).2

theorem noDigit_iff {r : List Symbol} :
    NoDigit r ↔ ∀ c t, r = .char c :: t → ¬ Chars.isAsciiDigit c = true := by
  simp [NoDigit]

/-- A number in front goes on in a digit, in a point with a digit or in an exponent. -/
theorem not_continues_iff {r : List Symbol} :
    ¬ Continues r ↔ NoDigit r ∧ NoPoint r ∧ NoExponent r := by
  constructor
  · intro h
    refine ⟨noDigit_iff.mpr ?_, fun t ht => noDigit_iff.mpr ?_,
      fun e t ht he => noDigit_iff.mpr ?_⟩
    · rintro c t rfl hc
      exact h (.digit hc)
    · rintro c t' rfl hc
      exact h (ht ▸ .point hc)
    · intro c t' heq hc
      subst ht
      unfold sign at heq
      split at heq <;> obtain rfl : _ = Symbol.char c :: t' := heq
      · exact h (.signed he (Or.inl rfl) hc)
      · exact h (.signed he (Or.inr rfl) hc)
      · exact h (.exponent he hc)
  · rintro ⟨hdigit, hpoint, hexp⟩ h
    cases h with
    | digit hc => exact noDigit_iff.mp hdigit _ _ rfl hc
    | point hc => exact noDigit_iff.mp (hpoint _ rfl) _ _ rfl hc
    | exponent he hc =>
      have h := hexp _ _ rfl he
      rw [sign_digit hc] at h
      exact noDigit_iff.mp h _ _ rfl hc
    | signed he hs hc =>
      have h := hexp _ _ rfl he
      rcases hs with rfl | rfl
      · exact noDigit_iff.mp h _ _ rfl hc
      · exact noDigit_iff.mp h _ _ rfl hc

theorem digitRun_of_noDigit {r : List Symbol} (hr : NoDigit r) : digitRun r = ([], r) := by
  unfold digitRun
  split
  · rename_i c t
    simp [hr c t rfl]
  · rfl

theorem digitRun_digit {c : Char} (hc : Chars.isAsciiDigit c = true) (r : List Symbol) :
    digitRun (.char c :: r) = (c :: (digitRun r).1, (digitRun r).2) := by
  rw [digitRun, if_pos hc]

theorem digitRun_spec (cs : List Symbol) :
    cs = Symbol.ofChars (digitRun cs).1 ++ (digitRun cs).2 ∧
      (∀ c ∈ (digitRun cs).1, Chars.isAsciiDigit c = true) ∧ NoDigit (digitRun cs).2 := by
  induction cs with
  | nil => exact ⟨rfl, nofun, nofun⟩
  | cons s r ih =>
    by_cases hdigit : ∃ c, s = .char c ∧ Chars.isAsciiDigit c = true
    · obtain ⟨c, rfl, hc⟩ := hdigit
      obtain ⟨hr, hall, hno⟩ := ih
      rw [digitRun_digit hc]
      exact ⟨congrArg (Symbol.char c :: ·) hr, List.forall_mem_cons.mpr ⟨hc, hall⟩, hno⟩
    · have hno : NoDigit (s :: r) := by
        refine noDigit_iff.mpr fun c t heq hc => hdigit ⟨c, (List.cons.inj heq).1, hc⟩
      rw [digitRun_of_noDigit hno]
      exact ⟨rfl, nofun, hno⟩

theorem digitRun_append {ds : List Char} {r : List Symbol}
    (hds : ∀ c ∈ ds, Chars.isAsciiDigit c = true) (hr : NoDigit r) :
    digitRun (Symbol.ofChars ds ++ r) = (ds, r) := by
  induction ds with
  | nil => exact digitRun_of_noDigit hr
  | cons c ds ih =>
    rw [List.forall_mem_cons] at hds
    rw [Symbol.ofChars_cons, List.cons_append, digitRun_digit hds.1, ih hds.2]

theorem noDigit_of_digitRun {cs : List Symbol} (h : (digitRun cs).1 = []) : NoDigit cs := by
  obtain ⟨hcs, -, hno⟩ := digitRun_spec cs
  rw [hcs, h]
  exact hno

/-- The digits that are read in front, where there are any. -/
theorem digits_of_digitRun {cs r : List Symbol} {ds : List Char} (h : digitRun cs = (ds, r))
    (hne : ds ≠ []) : cs = Symbol.ofChars ds ++ r ∧ Digits ds ∧ NoDigit r := by
  have hspec := digitRun_spec cs
  rw [h] at hspec
  exact ⟨hspec.1, ⟨hne, hspec.2.1⟩, hspec.2.2⟩

theorem integerPart?_gives {cs r : List Symbol} {ds : List Char}
    (h : integerPart? cs = some (ds, r)) :
    cs = Symbol.ofChars ds ++ r ∧ Whole ds ∧ (ds = ['0'] ∨ NoDigit r) := by
  unfold integerPart? at h
  split at h
  · cases h
    exact ⟨rfl, Or.inl rfl, Or.inl rfl⟩
  · rename_i hzero
    split at h
    · cases h
    · rename_i ds' r' hne hrun
      cases h
      obtain ⟨rfl, hds, hr⟩ := digits_of_digitRun hrun hne
      refine ⟨rfl, Or.inr ⟨hds, ?_⟩, Or.inr hr⟩
      intro hhead
      obtain ⟨t, rfl⟩ := List.head?_eq_some_iff.mp hhead
      exact hzero _ rfl

theorem integerPart?_append {ds : List Char} {r : List Symbol} (hds : Whole ds) (hr : NoDigit r) :
    integerPart? (Symbol.ofChars ds ++ r) = some (ds, r) := by
  rcases hds with rfl | ⟨⟨hne, hdigits⟩, hhead⟩
  · rfl
  · obtain ⟨c, t, rfl⟩ := List.exists_cons_of_ne_nil hne
    have hzero : ∀ t', Symbol.ofChars (c :: t) ++ r ≠ .char '0' :: t' := by
      rintro t' heq
      rw [Symbol.char.inj (List.cons.inj heq).1] at hhead
      exact hhead rfl
    rw [integerPart?, digitRun_append hdigits hr]
    exact hzero

theorem fraction_gives (cs : List Symbol) :
    ∃ f, cs = Symbol.ofChars f ++ (fraction cs).2 ∧ Fraction f (fraction cs).1 := by
  unfold fraction
  split
  · rename_i r
    split
    · exact ⟨[], rfl, .none⟩
    · rename_i ds r' hne hrun
      obtain ⟨rfl, hds, -⟩ := digits_of_digitRun hrun hne
      exact ⟨'.' :: ds, rfl, .some hds⟩
  · exact ⟨[], rfl, .none⟩

theorem fraction_append {f frac : List Char} {r : List Symbol} (hf : Fraction f frac)
    (hr : NoDigit r) (hpoint : NoPoint r) : fraction (Symbol.ofChars f ++ r) = (frac, r) := by
  cases hf with
  | none =>
    unfold fraction
    split
    · rename_i t heq
      rw [Symbol.ofChars_nil, List.nil_append] at heq
      rw [digitRun_of_noDigit (hpoint t heq), heq]
    · rfl
  | some hds =>
    obtain ⟨c, t, rfl⟩ := List.exists_cons_of_ne_nil hds.1
    rw [Symbol.ofChars_cons, List.cons_append, fraction, digitRun_append hds.2 hr]

theorem sign_spec (cs : List Symbol) : (sign cs).1 = false ∧ (sign cs).2 = cs ∨
    cs = .char (if (sign cs).1 then '-' else '+') :: (sign cs).2 := by
  unfold sign
  split
  · exact Or.inr rfl
  · exact Or.inr rfl
  · exact Or.inl ⟨rfl, rfl⟩

theorem exponentPart_gives (cs : List Symbol) :
    ∃ x, cs = Symbol.ofChars x ++ (exponentPart cs).2 ∧ Exponent x (exponentPart cs).1 := by
  unfold exponentPart
  split
  · rename_i e r
    split
    · rename_i he
      have hsign := sign_spec r
      generalize sign r = signed at hsign ⊢
      obtain ⟨negative, digits⟩ := signed
      simp only at hsign ⊢
      split
      · exact ⟨[], rfl, .none⟩
      · rename_i ds r' hne hrun
        obtain ⟨rfl, hds, -⟩ := digits_of_digitRun hrun hne
        rcases hsign with ⟨rfl, rfl⟩ | rfl
        · exact ⟨e :: ds, rfl, .unsigned he hds⟩
        · exact ⟨e :: (if negative then '-' else '+') :: ds, rfl, .signed he hds⟩
    · exact ⟨[], rfl, .none⟩
  · exact ⟨[], rfl, .none⟩

theorem exponentPart_append {x : List Char} {r : List Symbol} {exp : Option Int}
    (hx : Exponent x exp) (hr : NoDigit r) (hexp : NoExponent r) :
    exponentPart (Symbol.ofChars x ++ r) = (exp, r) := by
  cases hx with
  | none =>
    rw [Symbol.ofChars_nil, List.nil_append]
    unfold exponentPart
    split
    · rename_i e t
      split
      · rename_i he
        simp only [digitRun_of_noDigit (hexp e t rfl he)]
      · rfl
    · rfl
  | @unsigned e ds he hds =>
    obtain ⟨c, t, rfl⟩ := List.exists_cons_of_ne_nil hds.1
    have hsign : sign (Symbol.ofChars (c :: t) ++ r) = (false, Symbol.ofChars (c :: t) ++ r) :=
      sign_digit (hds.2 c List.mem_cons_self) (Symbol.ofChars t ++ r)
    rw [Symbol.ofChars_cons, List.cons_append, exponentPart, if_pos he, hsign]
    simp only [digitRun_append hds.2 hr, Bool.false_eq_true, if_false]
  | @signed e ds negative he hds =>
    have hsign : ∀ t, sign (.char (if negative then '-' else '+') :: t) = (negative, t) := by
      intro t
      cases negative <;> rfl
    obtain ⟨c, t, rfl⟩ := List.exists_cons_of_ne_nil hds.1
    rw [Symbol.ofChars_cons, Symbol.ofChars_cons, List.cons_append, List.cons_append, exponentPart,
      if_pos he, hsign]
    simp only [digitRun_append hds.2 hr]

theorem noPoint_of_fraction {r : List Symbol} (h : (fraction r).1 = []) : NoPoint r := by
  rintro t rfl
  refine noDigit_of_digitRun ?_
  unfold fraction at h
  split at h
  · rename_i heq
    obtain rfl := (List.cons.inj heq).2
    split at h
    · rename_i hrun
      rw [hrun]
    · rename_i hne _
      exact absurd h hne
  · rename_i hno
    exact absurd rfl (hno t)

theorem noExponent_of_exponentPart {r : List Symbol} (h : (exponentPart r).1 = none) :
    NoExponent r := by
  rintro e t rfl he
  refine noDigit_of_digitRun ?_
  rw [exponentPart, if_pos he] at h
  simp only at h
  split at h
  · rename_i hrun
    rw [hrun]
  · cases h

theorem Fraction.eq_nil_iff {f frac : List Char} (h : Fraction f frac) : f = [] ↔ frac = [] := by
  cases h with
  | none => exact Iff.rfl
  | some hds => exact ⟨nofun, fun hnil => absurd hnil hds.1⟩

theorem Exponent.eq_nil_iff {x : List Char} {exp : Option Int} (h : Exponent x exp) :
    x = [] ↔ exp = Option.none := by
  cases h <;> simp

/-! ## 4. Numbers -/

/-- A number that does not go on is read in its three parts. -/
theorem number_append (negative : Bool) {ds f frac x : List Char} {r : List Symbol}
    {exp : Option Int} (hds : Whole ds) (hf : Fraction f frac) (hx : Exponent x exp)
    (hr : ¬ Continues r) :
    number negative (Symbol.ofChars ds ++ (Symbol.ofChars f ++ (Symbol.ofChars x ++ r))) =
      if frac.isEmpty ∧ exp.isNone then
        if Chars.maxDigits < ds.length then .error (.limit .numberTooLong)
        else .ok (.int (if negative then -(natOf ds : Int) else (natOf ds : Int)), r)
      else .ok (.float (Binary64.ofDecimal negative (natOf (ds ++ frac))
        (exp.getD 0 - (frac.length : Int))), r) := by
  obtain ⟨hdigit, hpoint, hexp⟩ := not_continues_iff.mp hr
  have hletter : ∀ {e t}, e = 'e' ∨ e = 'E' →
      NoDigit (.char e :: t) ∧ NoPoint (.char e :: t) := by
    rintro e t (rfl | rfl)
    · exact ⟨noDigit_char rfl t, by simp [NoPoint]⟩
    · exact ⟨noDigit_char rfl t, by simp [NoPoint]⟩
  have hx' : NoDigit (Symbol.ofChars x ++ r) ∧ NoPoint (Symbol.ofChars x ++ r) := by
    cases hx with
    | none => exact ⟨hdigit, hpoint⟩
    | unsigned he _ => exact hletter he
    | signed he _ => exact hletter he
  have hf' : NoDigit (Symbol.ofChars f ++ (Symbol.ofChars x ++ r)) := by
    cases hf with
    | none => exact hx'.1
    | some _ => exact noDigit_char rfl _
  rw [number, integerPart?_append hds hf']
  simp only [fraction_append hf hx'.1 hx'.2, exponentPart_append hx hdigit hexp]

theorem number_gives (negative : Bool) (cs : List Symbol) :
    Gives (fun j r => ∃ t, cs = Symbol.ofChars t ++ r ∧ Numeral negative t j)
      (fun e => e = .missing ∨ e = .limit .numberTooLong ∧ TooLong cs) (number negative cs) := by
  unfold number
  split
  · exact Or.inl rfl
  · rename_i ds r hwhole
    obtain ⟨rfl, hds, hdigit⟩ := integerPart?_gives hwhole
    obtain ⟨f, hf, hfraction⟩ := fraction_gives r
    have hpoint := @noPoint_of_fraction r
    generalize fraction r = afterPoint at hf hfraction hpoint ⊢
    obtain ⟨frac, r'⟩ := afterPoint
    obtain rfl : r = Symbol.ofChars f ++ r' := hf
    dsimp only at hfraction hpoint ⊢
    obtain ⟨x, hx, hexponent⟩ := exponentPart_gives r'
    have hnone := @noExponent_of_exponentPart r'
    generalize exponentPart r' = afterLetter at hx hexponent hnone ⊢
    obtain ⟨exp, rest⟩ := afterLetter
    obtain rfl : r' = Symbol.ofChars x ++ rest := hx
    dsimp only at hexponent hnone ⊢
    split
    · rename_i hint
      obtain rfl : frac = [] := List.isEmpty_iff.mp hint.1
      obtain rfl : exp = none := Option.isNone_iff_eq_none.mp hint.2
      obtain rfl := hfraction.eq_nil_iff.mpr rfl
      obtain rfl := hexponent.eq_nil_iff.mpr rfl
      split
      · rename_i hlong
        have hzero : ds ≠ ['0'] := by
          rintro rfl
          exact absurd hlong (by decide)
        exact Or.inr ⟨rfl, .mk hds hlong
          (not_continues_iff.mpr ⟨hdigit.resolve_left hzero, hpoint rfl, hnone rfl⟩)⟩
      · exact ⟨ds, rfl, .int hds⟩
    · rename_i hfloat
      refine ⟨ds ++ (f ++ x), by simp only [Symbol.ofChars_append, List.append_assoc],
        .float hds hfraction hexponent ?_⟩
      rw [List.isEmpty_iff, Option.isNone_iff_eq_none, ← hfraction.eq_nil_iff,
        ← hexponent.eq_nil_iff] at hfloat
      exact not_and_or.mp hfloat

theorem number_found {negative : Bool} {t : List Char} {r : List Symbol} {j : Raw}
    (h : Numeral negative t j) (hr : ¬ Continues r) :
    number negative (Symbol.ofChars t ++ r) = .ok (j, r) ∨
      Refused (number negative (Symbol.ofChars t ++ r)) := by
  cases h with
  | int hds =>
    have hread := number_append negative hds .none .none hr
    rw [Symbol.ofChars_nil, List.nil_append, List.nil_append, if_pos ⟨rfl, rfl⟩] at hread
    rw [hread]
    split
    · exact Or.inr ⟨.numberTooLong, rfl⟩
    · exact Or.inl rfl
  | @float ds f frac x exp hds hf hx hne =>
    have hfloat : ¬ (frac.isEmpty = true ∧ exp.isNone = true) := by
      rw [List.isEmpty_iff, Option.isNone_iff_eq_none, ← hf.eq_nil_iff, ← hx.eq_nil_iff]
      exact not_and_or.mpr hne
    rw [Symbol.ofChars_append, Symbol.ofChars_append, List.append_assoc, List.append_assoc,
      number_append negative hds hf hx hr, if_neg hfloat]
    exact Or.inl rfl

theorem number_tooLong (negative : Bool) {cs : List Symbol} (h : TooLong cs) :
    number negative cs = .error (.limit .numberTooLong) := by
  cases h with
  | mk hds hlong hr =>
    have hread := number_append negative hds .none .none hr
    rw [Symbol.ofChars_nil, List.nil_append, List.nil_append, if_pos ⟨rfl, rfl⟩, if_pos hlong]
      at hread
    exact hread

end Json

end Recall
