/-
Recall.Proofs.Json.Reader — the reader of whole texts against the grammar.

The reader of lists and objects is made from the reader of what is in them, so what it reads is
shown for any reader and any grammar of items (`items_reads`, `member_reads`), and the reader of
values follows by induction on the levels that are left for it (`value_reads`). What an error says of
the text is `Explains`: a limit that is passed, or how deep the place is that is malformed.

A whole text gives the value it denotes if and only if it passes no limit (`read_eq_ok_iff`). A text
that passes one is refused for one, whether it is JSON or not (`refused_of_textExceeds`).
-/
import Recall.Proofs.Json.Token

namespace Recall

namespace Json

/-! ## 1. Words and numbers -/

theorem not_continues_of_ends {r : List Symbol} (h : Ends r) : ¬ Continues r := by
  intro hr
  cases hr with
  | @digit c t hc =>
    have hends := h (.char c) rfl
    simp only [isSpace, Bool.or_eq_true, beq_iff_eq, Symbol.char.injEq] at hends
    rcases hends with (((rfl | rfl) | rfl) | rfl) | rfl | rfl | rfl <;> cases hc
  | point _ => exact absurd (h _ rfl) (by decide)
  | exponent he _ => rcases he with rfl | rfl <;> exact absurd (h _ rfl) (by decide)
  | signed he _ _ => rcases he with rfl | rfl <;> exact absurd (h _ rfl) (by decide)

theorem word_gives (w : List Char) (j : Raw) {O : ReadError → Prop} (h : O .missing)
    (r : List Symbol) : Gives (fun j' r' => j' = j ∧ r = Symbol.ofChars w ++ r') O (word w j r) := by
  unfold word
  split
  · rename_i hw
    obtain ⟨r', rfl⟩ := List.isPrefixOf_iff_prefix.mp hw
    refine ⟨rfl, ?_⟩
    rw [← Symbol.length_ofChars w, List.drop_left]
  · exact h

theorem word_append (w : List Char) (j : Raw) (r : List Symbol) :
    word w j (Symbol.ofChars w ++ r) = .ok (j, r) := by
  rw [word, if_pos (List.isPrefixOf_iff_prefix.mpr (List.prefix_append _ r)),
    ← Symbol.length_ofChars w, List.drop_left]

theorem constant_append (left : Nat) (w : List Char) (x : Binary64) (r : List Symbol) :
    constant left w x (Symbol.ofChars w ++ r) =
      if left = 0 then .error (.limit .tooDeep) else .ok (.float x, r) := by
  rw [constant, word_append]
  rfl

/-- A text that begins with a digit. -/
def BeginsDigit (t : List Symbol) : Prop :=
  ∃ c r, t = .char c :: r ∧ Chars.isAsciiDigit c = true

theorem BeginsDigit.append {t : List Symbol} (h : BeginsDigit t) (r : List Symbol) :
    BeginsDigit (t ++ r) := by
  obtain ⟨c, t, rfl, hc⟩ := h
  exact ⟨c, t ++ r, rfl, hc⟩

theorem BeginsDigit.ne_cons {t : List Symbol} (h : BeginsDigit t) {d : Char}
    (hd : Chars.isAsciiDigit d = false) (r : List Symbol) : t ≠ .char d :: r := by
  obtain ⟨c, t, rfl, hc⟩ := h
  intro heq
  rw [Symbol.char.inj (List.cons.inj heq).1, hd] at hc
  cases hc

theorem Whole.beginsDigit {ds : List Char} (h : Whole ds) : BeginsDigit (Symbol.ofChars ds) := by
  rcases h with rfl | ⟨⟨hne, hdigits⟩, -⟩
  · exact ⟨'0', [], rfl, rfl⟩
  · obtain ⟨c, t, rfl⟩ := List.exists_cons_of_ne_nil hne
    exact ⟨c, Symbol.ofChars t, rfl, hdigits c List.mem_cons_self⟩

theorem Numeral.beginsDigit {negative : Bool} {t : List Char} {j : Raw}
    (h : Numeral negative t j) : BeginsDigit (Symbol.ofChars t) := by
  cases h with
  | int hds => exact hds.beginsDigit
  | float hds _ _ _ =>
    rw [Symbol.ofChars_append]
    exact hds.beginsDigit.append _

theorem TooLong.beginsDigit {cs : List Symbol} (h : TooLong cs) : BeginsDigit cs := by
  cases h with
  | mk hds _ _ => exact hds.beginsDigit.append _

/-- What an error says of a text with `depth` levels left for it. Of a place that is malformed the
levels left there are known, and so how deep it is. -/
def Explains (depth : Nat) (e : ReadError) (cs : List Symbol) : Prop :=
  match e with
  | .missing => True
  | .malformed left => ∀ n, left + n < depth → Exceeds n .tooDeep cs
  | .limit l => Exceeds depth l cs

theorem explains_malformed (depth : Nat) (cs : List Symbol) :
    Explains depth (.malformed depth) cs :=
  fun n hn => absurd hn (by omega)

section Scalars

variable {left : Nat}

theorem scalar_digit {t : List Symbol} (h : BeginsDigit t) : scalar left t = number false t := by
  rw [scalar]
  all_goals
    intro r
    exact h.ne_cons rfl _

theorem scalar_minus_digit {t : List Symbol} (h : BeginsDigit t) :
    scalar left (.char '-' :: t) = number true t := by
  rw [scalar]
  exact h.ne_cons rfl

theorem word_scalar (front w : List Char) {j : Raw} (h : Scalar (Symbol.ofChars (front ++ w)) j)
    (r : List Symbol) : Gives (fun j' r' => ∃ t, Symbol.ofChars front ++ r = t ++ r' ∧ Scalar t j')
      (Explains left · (Symbol.ofChars front ++ r)) (word w j r) := by
  refine (word_gives w j trivial r).imp ?_ fun _ he => he
  rintro j' r' ⟨rfl, rfl⟩
  exact ⟨Symbol.ofChars (front ++ w), by simp, h⟩

theorem constant_scalar (front w : List Char) {x : Binary64}
    (h : Constant (Symbol.ofChars (front ++ w)) x) (r : List Symbol) :
    Gives (fun j' r' => ∃ t, Symbol.ofChars front ++ r = t ++ r' ∧ Scalar t j')
      (Explains left · (Symbol.ofChars front ++ r)) (constant left w x r) := by
  refine (word_gives w (.float x) trivial r).bind ?_ fun _ he => he
  rintro j' r' ⟨rfl, rfl⟩
  rw [← List.append_assoc, ← Symbol.ofChars_append]
  cases left with
  | zero => exact Exceeds.constant h
  | succ n => exact ⟨_, rfl, .constant h⟩

theorem scalar_gives (cs : List Symbol) :
    Gives (fun j r => ∃ t, cs = t ++ r ∧ Scalar t j) (Explains left · cs) (scalar left cs) := by
  unfold scalar
  split
  · rename_i r
    refine (string_gives r).bind ?_ ?_
    · rintro s r' ⟨t, rfl, hq⟩
      exact ⟨.char '"' :: (t ++ [.char '"']), by simp, .string hq⟩
    · rintro e rfl
      exact explains_malformed left _
  · exact word_scalar ['n'] _ .null _
  · exact word_scalar ['t'] _ .true _
  · exact word_scalar ['f'] _ .false _
  · exact constant_scalar ['N'] _ .nan _
  · exact constant_scalar ['I'] _ .infinity _
  · exact constant_scalar ['-', 'I'] _ .minusInfinity _
  · rename_i r _
    refine (number_gives true r).imp ?_ ?_
    · rintro j r' ⟨t, rfl, ht⟩
      exact ⟨.char '-' :: Symbol.ofChars t, rfl, .negative ht⟩
    · rintro e (rfl | ⟨rfl, hlong⟩)
      · exact trivial
      · exact Exceeds.negative hlong
  · refine (number_gives false cs).imp ?_ ?_
    · rintro j r' ⟨t, rfl, ht⟩
      exact ⟨Symbol.ofChars t, rfl, .number ht⟩
    · rintro e (rfl | ⟨rfl, hlong⟩)
      · exact trivial
      · exact Exceeds.number hlong

/-- A word that stands for a number is read if a level is left. -/
theorem scalar_constant {t : List Symbol} {x : Binary64} (h : Constant t x) (r : List Symbol) :
    scalar left (t ++ r) = if left = 0 then .error (.limit .tooDeep) else .ok (.float x, r) := by
  cases h with
  | nan => exact constant_append left ['a', 'N'] _ r
  | infinity => exact constant_append left ['n', 'f', 'i', 'n', 'i', 't', 'y'] _ r
  | minusInfinity => exact constant_append left ['n', 'f', 'i', 'n', 'i', 't', 'y'] _ r

theorem scalar_found {t r : List Symbol} {j : Raw} (h : Scalar t j) (hr : Ends r) :
    scalar left (t ++ r) = .ok (j, r) ∨ Refused (scalar left (t ++ r)) := by
  cases h with
  | null => exact Or.inl (word_append ['u', 'l', 'l'] _ r)
  | true => exact Or.inl (word_append ['r', 'u', 'e'] _ r)
  | false => exact Or.inl (word_append ['a', 'l', 's', 'e'] _ r)
  | constant hx =>
    rw [scalar_constant hx]
    split
    · exact Or.inr ⟨.tooDeep, rfl⟩
    · exact Or.inl rfl
  | @string t s hq =>
    refine Or.inl ?_
    rw [List.cons_append, List.append_assoc, scalar]
    exact string_found hq r ▸ rfl
  | number hn =>
    rw [scalar_digit (hn.beginsDigit.append r)]
    exact number_found hn (not_continues_of_ends hr)
  | negative hn =>
    rw [List.cons_append, scalar_minus_digit (hn.beginsDigit.append r)]
    exact number_found hn (not_continues_of_ends hr)

end Scalars

/-! ## 2. Blanks -/

/-- No blank comes next. -/
def NoBlank (r : List Symbol) : Prop :=
  ∀ c ∈ r.head?, isSpace c = false

theorem skip_append {w r : List Symbol} (hw : Blank w) (hr : NoBlank r) : skip (w ++ r) = r := by
  rw [skip, List.dropWhile_append_of_pos hw]
  cases r with
  | nil => rfl
  | cons c t => simp [hr c rfl]

theorem exists_blank_skip (cs : List Symbol) :
    ∃ w, Blank w ∧ cs = w ++ skip cs ∧ NoBlank (skip cs) := by
  refine ⟨cs.takeWhile isSpace, fun c hc => List.mem_takeWhile_imp hc,
    List.takeWhile_append_dropWhile.symm, ?_⟩
  intro c hc
  have h := List.head?_dropWhile_not isSpace cs
  rw [skip, Option.mem_def] at hc
  simpa [hc] using h

/-- Blanks do not hide what may stand behind a value. -/
theorem Ends.blank_append {w r : List Symbol} (hw : Blank w) (hr : Ends r) : Ends (w ++ r) := by
  cases w with
  | nil => exact hr
  | cons c t =>
    intro c' hc
    obtain rfl : c = c' := by simpa using hc
    exact Or.inl (hw c List.mem_cons_self)

/-- A text that begins neither with a blank nor with a closing bracket. -/
def Begins (t : List Symbol) : Prop :=
  ∃ c r, t = c :: r ∧ isSpace c = false ∧ c ≠ .char ']' ∧ c ≠ .char '}'

theorem Begins.noBlank {t : List Symbol} (h : Begins t) : NoBlank t := by
  obtain ⟨c, t, rfl, hc, -⟩ := h
  simpa [NoBlank] using hc

theorem Begins.append {t : List Symbol} (h : Begins t) (r : List Symbol) : Begins (t ++ r) := by
  obtain ⟨c, t, rfl, hc⟩ := h
  exact ⟨c, t ++ r, rfl, hc⟩

/-! ## 3. Items -/

section Items

variable {α ε : Type} {left : Nat} {rd : Reader α} {Item : List Symbol → α → Prop}
  {Off : ReadError → List Symbol → Prop} {Over : Limit → List Symbol → Prop} {close : Char}

/-- Behind items the text is one of which an error is said. -/
def Inside (Item : List Symbol → α → Prop) (Says : ε → List Symbol → Prop) (e : ε)
    (cs : List Symbol) : Prop :=
  ∃ front r, cs = front ++ r ∧ Front Item front ∧ Says e r

/-- What is between brackets is malformed itself, or an error is said of a text in it. -/
def Here (left : Nat) (Within : ReadError → List Symbol → Prop) (e : ReadError)
    (cs : List Symbol) : Prop :=
  e = .malformed left ∨ Within e cs

/-- Items up to a closing bracket. -/
def Closed (Item : List Symbol → α → Prop) (close : Char) (t : List Symbol) (as : List α) : Prop :=
  ∃ body, t = body ++ [.char close] ∧ Series Item body as

theorem items_eq (cs : List Symbol) : items left rd close cs =
    if (skip cs).head? = some (.char close) then .ok ([], (skip cs).tail)
    else itemsFrom left rd close (cs.length + 1) cs := by
  have hskip : itemsFrom left rd close (cs.length + 1) (skip cs) =
      itemsFrom left rd close (cs.length + 1) cs := by
    obtain ⟨w, -, -, hno⟩ := exists_blank_skip cs
    have hagain : skip (skip cs) = skip cs := skip_append (w := []) nofun hno
    rw [itemsFrom, itemsFrom, hagain]
  rw [items, hskip]

theorem skip_close (hclose : close = ']' ∨ close = '}') {w : List Symbol} (hw : Blank w)
    (r : List Symbol) : skip (w ++ Symbol.char close :: r) = Symbol.char close :: r :=
  skip_append hw (by rcases hclose with rfl | rfl <;> simp [NoBlank, isSpace])

theorem items_begins (hclose : close = ']' ∨ close = '}') {w t : List Symbol} (hw : Blank w)
    (ht : Begins t) :
    items left rd close (w ++ t) = itemsFrom left rd close ((w ++ t).length + 1) (w ++ t) := by
  obtain ⟨c, t, rfl, hc, hlist, hobject⟩ := ht
  have hne : (c :: t).head? ≠ some (.char close) := by
    rw [List.head?_cons, ne_eq, Option.some.injEq]
    rcases hclose with rfl | rfl
    · exact hlist
    · exact hobject
  rw [items_eq, skip_append hw (by simpa [NoBlank] using hc), if_neg hne]

theorem Series.begins (hbegins : ∀ {t a}, Item t a → Begins t) {body : List Symbol} {as : List α}
    (h : Series Item body as) (hne : as ≠ []) : ∃ w t, body = w ++ t ∧ Blank w ∧ Begins t := by
  cases h with
  | empty _ => exact absurd rfl hne
  | last hw ht _ => exact ⟨_, _, rfl, hw, (hbegins ht).append _⟩
  | more hw ht _ _ => exact ⟨_, _, rfl, hw, (hbegins ht).append _⟩

theorem Front.begins (hbegins : ∀ {t a}, Item t a → Begins t) {front r : List Symbol}
    (h : Front Item front) (hr : Begins r) : ∃ w t, front ++ r = w ++ t ∧ Blank w ∧ Begins t := by
  cases h with
  | first hw => exact ⟨_, _, rfl, hw, hr⟩
  | next hw ht _ _ =>
    exact ⟨_, _, List.append_assoc _ _ _, hw, ((hbegins ht).append _).append _⟩

theorem itemsFrom_gives (h : Reads rd Item Off Over) (fuel : Nat) (cs : List Symbol) :
    Gives (fun as r => ∃ body, cs = body ++ Symbol.char close :: r ∧ Series Item body as ∧ as ≠ [])
      (Here left (Inside Item Off) · cs) (itemsFrom left rd close fuel cs) := by
  induction fuel generalizing cs with
  | zero => exact Or.inl rfl
  | succ fuel ih =>
    unfold itemsFrom
    obtain ⟨w, hw, hcs, -⟩ := exists_blank_skip cs
    refine (h.gives (skip cs)).bind ?_ fun e he => Or.inr ⟨w, skip cs, hcs, .first hw, he⟩
    rintro a r ⟨t, ht, hitem⟩
    obtain ⟨w', hw', hr, -⟩ := exists_blank_skip r
    rw [ht, hr] at hcs
    dsimp only
    split
    · exact Or.inl rfl
    · rename_i c r' hskip
      rw [hskip] at hcs
      split
      · rename_i hclose
        subst hclose
        exact ⟨w ++ (t ++ w'), by simp [hcs], .last hw hitem hw', List.cons_ne_nil _ _⟩
      · split
        · rename_i hcomma
          subst hcomma
          refine (ih r').bind ?_ ?_
          · rintro as r'' ⟨body, hbody, hseries, hne⟩
            obtain ⟨b, bs, rfl⟩ := List.exists_cons_of_ne_nil hne
            exact ⟨w ++ (t ++ (w' ++ Symbol.char ',' :: body)), by simp [hcs, hbody],
              .more hw hitem hw' hseries, List.cons_ne_nil _ _⟩
          · rintro e (he | ⟨front, r'', hr'', hfront, hoff⟩)
            · exact Or.inl he
            · exact Or.inr ⟨w ++ (t ++ (w' ++ Symbol.char ',' :: front)), r'', by simp [hcs, hr''],
                .next hw hitem hw' hfront, hoff⟩
        · exact Or.inl rfl

variable (h : Reads rd Item Off Over) (hbegins : ∀ {t a}, Item t a → Begins t)

include h hbegins

/-- An item is read up to what stands behind its blanks, or refused for a limit. -/
theorem found_behind_blank {w t w' r : List Symbol} {a : α} (hw : Blank w) (ht : Item t a)
    (hw' : Blank w') (hr : Ends r) :
    rd (skip (w ++ (t ++ (w' ++ r)))) = .ok (a, w' ++ r) ∨
      Refused (rd (skip (w ++ (t ++ (w' ++ r))))) := by
  rw [skip_append hw ((hbegins ht).append _).noBlank]
  exact h.found ht (hr.blank_append hw')

variable (hclose : close = ']' ∨ close = '}')

include hclose

/-- With a comma behind an item the items go on. -/
theorem itemsFrom_comma {w t w' : List Symbol} {a : α} (hw : Blank w) (ht : Item t a)
    (hw' : Blank w') (fuel : Nat) (r : List Symbol) :
    itemsFrom left rd close (fuel + 1) (w ++ (t ++ (w' ++ Symbol.char ',' :: r))) =
        (itemsFrom left rd close fuel r).map (fun (as, r) => (a :: as, r)) ∨
      Refused (itemsFrom left rd close (fuel + 1) (w ++ (t ++ (w' ++ Symbol.char ',' :: r)))) := by
  have hcomma : Ends (Symbol.char ',' :: r) := by simp [Ends]
  have hskip : skip (w' ++ Symbol.char ',' :: r) = Symbol.char ',' :: r :=
    skip_append hw' (by simp [NoBlank, isSpace])
  have hne : Symbol.char ',' ≠ .char close := by rcases hclose with rfl | rfl <;> decide
  rw [itemsFrom]
  rcases found_behind_blank h hbegins hw ht hw' hcomma with hread | hread
  · refine Or.inl ?_
    rw [hread]
    simp only [bind, Except.bind, hskip, if_neg hne, if_true]
    cases itemsFrom left rd close fuel r <;> rfl
  · exact Or.inr hread.bind

theorem itemsFrom_last {w t w' : List Symbol} {a : α} (hw : Blank w) (ht : Item t a)
    (hw' : Blank w') (fuel : Nat) (r : List Symbol) :
    itemsFrom left rd close (fuel + 1) (w ++ (t ++ (w' ++ Symbol.char close :: r))) = .ok ([a], r) ∨
      Refused (itemsFrom left rd close (fuel + 1) (w ++ (t ++ (w' ++ Symbol.char close :: r)))) := by
  have hends : Ends (Symbol.char close :: r) := by rcases hclose with rfl | rfl <;> simp [Ends]
  rw [itemsFrom]
  rcases found_behind_blank h hbegins hw ht hw' hends with hread | hread
  · refine Or.inl ?_
    rw [hread]
    simp only [bind, Except.bind, skip_close hclose hw', if_true]
    rfl
  · exact Or.inr hread.bind

theorem itemsFrom_found {fuel : Nat} {body : List Symbol} {as : List α}
    (hs : Series Item body as) (hne : as ≠ []) (hfuel : body.length < fuel) (r : List Symbol) :
    itemsFrom left rd close fuel (body ++ Symbol.char close :: r) = .ok (as, r) ∨
      Refused (itemsFrom left rd close fuel (body ++ Symbol.char close :: r)) := by
  induction fuel generalizing body as with
  | zero => cases hfuel
  | succ fuel ih =>
    cases hs with
    | empty _ => exact absurd rfl hne
    | last hw ht hw' =>
      simp only [List.append_assoc]
      exact itemsFrom_last h hbegins hclose hw ht hw' fuel r
    | more hw ht hw' hr =>
      simp only [List.length_append, List.length_cons] at hfuel
      simp only [List.append_assoc, List.cons_append]
      rcases itemsFrom_comma h hbegins hclose hw ht hw' fuel _ with hread | hread
      · rw [hread]
        rcases ih hr (List.cons_ne_nil _ _) (by omega) with hrest | hrest
        · exact Or.inl (by rw [hrest]; rfl)
        · exact Or.inr hrest.map
      · exact Or.inr hread

theorem itemsFrom_refused (hover : ∀ {l cs}, Over l cs → Begins cs) {fuel : Nat}
    {front r : List Symbol} {l : Limit} (hf : Front Item front) (hr : Over l r)
    (hfuel : front.length < fuel) : Refused (itemsFrom left rd close fuel (front ++ r)) := by
  induction fuel generalizing front with
  | zero => cases hfuel
  | succ fuel ih =>
    cases hf with
    | first hw =>
      rw [itemsFrom, skip_append hw (hover hr).noBlank]
      exact (h.refused hr).bind
    | next hw ht hw' hrest =>
      simp only [List.length_append, List.length_cons] at hfuel
      simp only [List.append_assoc, List.cons_append]
      rcases itemsFrom_comma h hbegins hclose hw ht hw' fuel _ with hread | hread
      · rw [hread]
        exact (ih hrest (by omega)).map
      · exact hread

/-- The items of a list or of the members of an object are read by a reader of one of them. -/
theorem items_reads (hover : ∀ {l cs}, Over l cs → Begins cs) :
    Reads (items left rd close) (Closed Item close) (Here left (Inside Item Off))
      (Inside Item Over) where
  gives := by
    intro cs
    rw [items_eq]
    split
    · rename_i hhead
      obtain ⟨w, hw, hcs, -⟩ := exists_blank_skip cs
      obtain ⟨r, hr⟩ := List.head?_eq_some_iff.mp hhead
      rw [hr] at hcs ⊢
      exact ⟨w ++ [.char close], by simp [hcs], w, rfl, .empty hw⟩
    · refine (itemsFrom_gives h (cs.length + 1) cs).imp ?_ fun _ he => he
      rintro as r ⟨body, hbody, hseries, -⟩
      exact ⟨body ++ [.char close], by simp [hbody], body, rfl, hseries⟩
  found := by
    rintro t as r ⟨body, rfl, hseries⟩ -
    rw [List.append_assoc, List.singleton_append]
    by_cases hne : as = []
    · subst hne
      cases hseries with
      | empty hw =>
        rw [items_eq, skip_close hclose hw]
        exact Or.inl (if_pos rfl)
    · obtain ⟨w, t, rfl, hw, ht⟩ := hseries.begins hbegins hne
      rw [List.append_assoc, items_begins hclose hw (ht.append _), ← List.append_assoc]
      refine itemsFrom_found h hbegins hclose hseries hne ?_ r
      simp only [List.length_append]
      omega
  refused := by
    rintro l cs ⟨front, r, rfl, hfront, hr⟩
    obtain ⟨w, t, heq, hw, ht⟩ := hfront.begins hbegins (hover hr)
    have hlen : front.length < (front ++ r).length + 1 := by
      rw [List.length_append]
      omega
    rw [heq, items_begins hclose hw ht, ← heq]
    exact itemsFrom_refused h hbegins hclose hover hfront hr hlen

end Items

/-! ## 4. Members -/

section Members

variable {ε : Type} {left : Nat} {rd : Reader Raw} {Value : List Symbol → Raw → Prop}
  {Off : ReadError → List Symbol → Prop} {Over : Limit → List Symbol → Prop}

/-- Behind a key and a colon the text is one of which an error is said. -/
def Behind (Says : ε → List Symbol → Prop) (e : ε) (cs : List Symbol) : Prop :=
  ∃ opening key r, cs = opening ++ r ∧ Opening opening key ∧ Says e r

theorem Opening.begins {t : List Symbol} {key : List Symbol} (h : Opening t key) : Begins t := by
  cases h
  exact ⟨.char '"', _, rfl, by decide⟩

theorem member_opening {t : List Symbol} {key : List Symbol} (h : Opening t key) {v : List Symbol}
    (hv : NoBlank v) : member left rd (t ++ v) = (rd v).map fun (j, r) => ((key, j), r) := by
  cases h with
  | @mk t s w w' hq hw hw' =>
    have hcolon : skip (w ++ Symbol.char ':' :: (w' ++ v)) = Symbol.char ':' :: (w' ++ v) :=
      skip_append hw (by simp [NoBlank, isSpace])
    have hvalue : skip (w' ++ v) = v := skip_append hw' hv
    simp only [List.cons_append, List.append_assoc]
    rw [member, string_found hq]
    simp only [bind, Except.bind, hcolon, hvalue]
    cases rd v <;> rfl

theorem member_gives (h : Reads rd Value Off Over) (cs : List Symbol) :
    Gives (fun m r => ∃ t, cs = t ++ r ∧ Member Value t m) (Here left (Behind Off) · cs)
      (member left rd cs) := by
  unfold member
  split
  · rename_i r
    refine (string_gives r).bind ?_ fun _ he => Or.inl he
    rintro key r' ⟨t, rfl, hq⟩
    obtain ⟨w, hw, hr', -⟩ := exists_blank_skip r'
    dsimp only
    split
    · rename_i r'' hcolon
      obtain ⟨w', hw', hr'', -⟩ := exists_blank_skip r''
      rw [hcolon, hr''] at hr'
      have hopening : Opening
          (.char '"' :: (t ++ Symbol.char '"' :: (w ++ Symbol.char ':' :: w'))) key := .mk hq hw hw'
      refine (h.gives (skip r'')).bind ?_ ?_
      · rintro j r ⟨v, hv, hvalue⟩
        exact ⟨_, by rw [hr', hv]; simp, .mk hopening hvalue⟩
      · intro e he
        exact Or.inr ⟨_, _, skip r'', by rw [hr']; simp, hopening, he⟩
    · exact Or.inl rfl
  · exact Or.inl rfl

/-- A member of an object is read by a reader of its value. -/
theorem member_reads (h : Reads rd Value Off Over) (hbegins : ∀ {t a}, Value t a → Begins t)
    (hover : ∀ {l cs}, Over l cs → Begins cs) :
    Reads (member left rd) (Member Value) (Here left (Behind Off)) (Behind Over) where
  gives := member_gives h
  found := by
    intro t m r hm hr
    cases hm with
    | mk hopening hvalue =>
      rw [List.append_assoc, member_opening hopening ((hbegins hvalue).append _).noBlank]
      rcases h.found hvalue hr with hread | hread
      · exact Or.inl (by rw [hread]; rfl)
      · exact Or.inr hread.map
  refused := by
    rintro l cs ⟨opening, key, r, rfl, hopening, hr⟩
    rw [member_opening hopening (hover hr).noBlank]
    exact (h.refused hr).map

end Members

/-! ## 5. Values -/

/-- A text that begins like a value that is neither a list nor an object. -/
def BeginsPlain (t : List Symbol) : Prop :=
  ∃ c r, t = c :: r ∧ isSpace c = false ∧ c ∉ [.char '[', .char ']', .char '{', .char '}']

theorem BeginsPlain.begins {t : List Symbol} (h : BeginsPlain t) : Begins t := by
  obtain ⟨c, r, rfl, hc, hplain⟩ := h
  simp only [List.mem_cons, List.not_mem_nil, or_false, not_or] at hplain
  exact ⟨c, r, rfl, hc, hplain.2.1, hplain.2.2.2⟩

theorem BeginsDigit.beginsPlain {t : List Symbol} (h : BeginsDigit t) : BeginsPlain t := by
  obtain ⟨c, r, rfl, hc⟩ := h
  have hne : ∀ d, Chars.isAsciiDigit d = false → Symbol.char c ≠ .char d :=
    fun d hd heq => Chars.ne_of_isAsciiDigit hc hd (Symbol.char.inj heq)
  refine ⟨.char c, r, rfl, ?_, ?_⟩
  · simp only [isSpace, beq_false_of_ne (hne ' ' rfl), beq_false_of_ne (hne '\t' rfl),
      beq_false_of_ne (hne '\n' rfl), beq_false_of_ne (hne '\r' rfl), Bool.or_self]
  · simp only [List.mem_cons, List.not_mem_nil, or_false, not_or]
    exact ⟨hne '[' rfl, hne ']' rfl, hne '{' rfl, hne '}' rfl⟩

theorem Scalar.beginsPlain {t : List Symbol} {j : Raw} (h : Scalar t j) : BeginsPlain t := by
  cases h with
  | number hn => exact hn.beginsDigit.beginsPlain
  | constant hx => cases hx <;> exact ⟨_, _, rfl, by decide⟩
  | _ => exact ⟨_, _, rfl, by decide⟩

theorem Denotes.begins {t : List Symbol} {j : Raw} (h : Denotes t j) : Begins t := by
  cases h with
  | scalar hs => exact hs.beginsPlain.begins
  | _ => exact ⟨_, _, rfl, by decide⟩

theorem Exceeds.begins {depth : Nat} {l : Limit} {cs : List Symbol} (h : Exceeds depth l cs) :
    Begins cs := by
  cases h with
  | number hlong => exact hlong.beginsDigit.beginsPlain.begins
  | constant hx => exact (Scalar.constant hx).beginsPlain.begins.append _
  | _ => exact ⟨_, _, rfl, by decide⟩

theorem Member.begins {t : List Symbol} {m : List Symbol × Raw} (h : Member Denotes t m) :
    Begins t := by
  cases h with
  | mk hopening _ => exact hopening.begins.append _

theorem Behind.begins {depth : Nat} {l : Limit} {cs : List Symbol}
    (h : Behind (Exceeds depth) l cs) : Begins cs := by
  obtain ⟨opening, key, r, rfl, hopening, -⟩ := h
  exact hopening.begins.append r

theorem value_plain {t : List Symbol} (h : BeginsPlain t) (left : Nat) (r : List Symbol) :
    value left (t ++ r) = scalar left (t ++ r) := by
  obtain ⟨c, t, rfl, -, hc⟩ := h
  simp only [List.mem_cons, List.not_mem_nil, or_false, not_or] at hc
  rw [List.cons_append, value]
  · exact fun _ heq => hc.1 (List.cons.inj heq).1
  · exact fun _ heq => hc.2.2.1 (List.cons.inj heq).1

theorem value_tooLong {cs : List Symbol} (h : TooLong cs) (left : Nat) :
    value left cs = .error (.limit .numberTooLong) := by
  have hplain := value_plain h.beginsDigit.beginsPlain left []
  rw [List.append_nil] at hplain
  rw [hplain, scalar_digit h.beginsDigit, number_tooLong false h]

/-- The reader of values reads what the grammar says with some levels left for it. -/
abbrev ReadsValues (left : Nat) : Prop :=
  Reads (value left) Denotes (Explains left) (Exceeds left)

section Brackets

variable {left : Nat} (h : ReadsValues left)
include h

theorem list_reads : Reads (items left (value left) ']') (Closed Denotes ']')
    (Here left (Inside Denotes (Explains left))) (Inside Denotes (Exceeds left)) :=
  items_reads h Denotes.begins (Or.inl rfl) Exceeds.begins

theorem object_reads : Reads (items left (member left (value left)) '}') (Closed (Member Denotes) '}')
    (Here left (Inside (Member Denotes) (Here left (Behind (Explains left)))))
    (Inside (Member Denotes) (Behind (Exceeds left))) :=
  items_reads (member_reads h Denotes.begins Exceeds.begins) Member.begins (Or.inr rfl)
    Behind.begins

end Brackets

/-- What an error says of a text in brackets it says of the brackets, which take a level. -/
theorem Explains.outer {left : Nat} {e : ReadError} {cs r : List Symbol}
    (hopen : Exceeds 0 .tooDeep cs) (hin : ∀ n l, Exceeds n l r → Exceeds (n + 1) l cs)
    (h : Explains left e r) : Explains (left + 1) e cs := by
  cases e with
  | missing => exact trivial
  | malformed at' =>
    rintro (_ | n) hn
    · exact hopen
    · exact hin n _ (h n (by omega))
  | limit l => exact hin left l h

/-- Brackets are malformed where they are opened. -/
theorem explains_brackets {left : Nat} {cs : List Symbol} (hopen : Exceeds 0 .tooDeep cs) :
    Explains (left + 1) (.malformed left) cs := by
  intro n hn
  obtain rfl : n = 0 := by omega
  exact hopen

section Value

variable {left : Nat} (below : ∀ n, left = n + 1 → ReadsValues n)
include below

theorem value_gives (cs : List Symbol) :
    Gives (fun j r => ∃ t, cs = t ++ r ∧ Denotes t j) (Explains left · cs) (value left cs) := by
  unfold value
  split
  · rename_i r
    split
    · exact Exceeds.list
    · rename_i n
      refine ((list_reads (below n rfl)).gives r).bind ?_ ?_
      · rintro js r' ⟨t, rfl, body, rfl, hseries⟩
        exact ⟨_, rfl, .list hseries⟩
      · rintro e (rfl | ⟨front, r', rfl, hfront, he⟩)
        · exact explains_brackets .list
        · exact he.outer .list fun _ _ => .inList hfront
  · rename_i r
    split
    · exact Exceeds.object
    · rename_i n
      refine ((object_reads (below n rfl)).gives r).bind ?_ ?_
      · rintro ms r' ⟨t, rfl, body, rfl, hseries⟩
        exact ⟨_, rfl, .object hseries⟩
      · rintro e (rfl | ⟨front, r', rfl, hfront, rfl | ⟨opening, key, r'', rfl, hopening, he⟩⟩)
        · exact explains_brackets .object
        · exact explains_brackets .object
        · exact he.outer .object fun _ _ => .inObject hfront hopening
  · refine (scalar_gives cs).imp ?_ fun _ he => he
    rintro j r ⟨t, rfl, ht⟩
    exact ⟨t, rfl, .scalar ht⟩

theorem value_found {t r : List Symbol} {j : Raw} (h : Denotes t j) (hr : Ends r) :
    value left (t ++ r) = .ok (j, r) ∨ Refused (value left (t ++ r)) := by
  cases h with
  | scalar hs =>
    rw [value_plain hs.beginsPlain]
    exact scalar_found hs hr
  | list hseries =>
    cases left with
    | zero => exact Or.inr ⟨.tooDeep, rfl⟩
    | succ n =>
      rw [List.cons_append, value]
      rcases (list_reads (below n rfl)).found ⟨_, rfl, hseries⟩ hr with hread | hread
      · exact Or.inl (by rw [hread]; rfl)
      · exact Or.inr hread.bind
  | object hseries =>
    cases left with
    | zero => exact Or.inr ⟨.tooDeep, rfl⟩
    | succ n =>
      rw [List.cons_append, value]
      rcases (object_reads (below n rfl)).found ⟨_, rfl, hseries⟩ hr with hread | hread
      · exact Or.inl (by rw [hread]; rfl)
      · exact Or.inr hread.bind

theorem value_refused {l : Limit} {cs : List Symbol} (h : Exceeds left l cs) :
    Refused (value left cs) := by
  cases h with
  | number hlong => exact ⟨.numberTooLong, value_tooLong hlong left⟩
  | @negative _ r hlong =>
    have hplain : BeginsPlain [.char '-'] := ⟨.char '-', [], rfl, by decide⟩
    rw [← List.singleton_append, value_plain hplain, List.singleton_append,
      scalar_minus_digit hlong.beginsDigit]
    exact ⟨.numberTooLong, number_tooLong true hlong⟩
  | constant hx =>
    rw [value_plain (Scalar.constant hx).beginsPlain, scalar_constant hx]
    exact ⟨.tooDeep, rfl⟩
  | list => exact ⟨.tooDeep, rfl⟩
  | object => exact ⟨.tooDeep, rfl⟩
  | inList hfront hover =>
    rw [value]
    exact ((list_reads (below _ rfl)).refused ⟨_, _, rfl, hfront, hover⟩).bind
  | inObject hfront hopening hover =>
    rw [value]
    exact ((object_reads (below _ rfl)).refused
      ⟨_, _, rfl, hfront, _, _, _, rfl, hopening, hover⟩).bind

end Value

/-- The reader of values reads what the grammar says, as deep as it may go. -/
theorem value_reads (left : Nat) : ReadsValues left := by
  induction left with
  | zero =>
    have below : ∀ n, 0 = n + 1 → ReadsValues n := fun _ hn => nomatch hn
    exact ⟨value_gives below, value_found below, value_refused below⟩
  | succ left ih =>
    have below : ∀ n, left + 1 = n + 1 → ReadsValues n := by
      rintro n hn
      rw [← Nat.succ.inj hn]
      exact ih
    exact ⟨value_gives below, value_found below, value_refused below⟩

/-! ## 6. Texts -/

section Text

variable {depth : Nat} {cs : List Symbol}

theorem isText_of_read {j : Raw} (h : read depth cs = .ok j) : IsText cs j := by
  obtain ⟨w, hw, hcs, -⟩ := exists_blank_skip cs
  have hgives := (value_reads depth).gives (skip cs)
  unfold read at h
  split at h
  · cases h
  · cases h
  · rename_i j' r hread
    rw [hread] at hgives
    obtain ⟨t, ht, hdenotes⟩ := hgives
    obtain ⟨w', hw', hr, -⟩ := exists_blank_skip r
    split at h
    · rename_i hnil
      cases h
      rw [hnil, List.append_nil] at hr
      exact ⟨w, t, w', by rw [hcs, ht, hr], hw, hdenotes, hw'⟩
    · cases h

/-- What an error says of a whole text, blanks in front apart. Outside of the text there are more
levels than it has for itself. -/
theorem explains_of_read {e : ReadError} (h : read depth cs = .error e) :
    ∃ w r, cs = w ++ r ∧ Blank w ∧ Explains depth e r := by
  obtain ⟨w, hw, hcs, -⟩ := exists_blank_skip cs
  refine ⟨w, skip cs, hcs, hw, ?_⟩
  have hgives := (value_reads depth).gives (skip cs)
  have houter : ∀ n, depth ≤ n → Explains depth (.malformed n) (skip cs) :=
    fun n hle k hk => absurd hk (by omega)
  unfold read at h
  split at h
  · cases h
    exact houter _ (by omega)
  · rename_i e' _ hread
    cases h
    rw [hread] at hgives
    exact hgives
  · split at h
    · cases h
    · cases h
      exact houter _ (by omega)

/-- A limit that is named is passed. -/
theorem textExceeds_of_read {l : Limit} (h : read depth cs = .error (.limit l)) :
    TextExceeds depth l cs :=
  explains_of_read h

/-- Where fewer levels are left than there are beyond `n`, the text is nested deeper than `n`. -/
theorem textExceeds_of_malformed {left n : Nat} (h : read depth cs = .error (.malformed left))
    (hn : left + n < depth) : TextExceeds n .tooDeep cs := by
  obtain ⟨w, r, hcs, hw, he⟩ := explains_of_read h
  exact ⟨w, r, hcs, hw, he n hn⟩

theorem read_of_isText {j : Raw} (h : IsText cs j) :
    read depth cs = .ok j ∨ Refused (read depth cs) := by
  obtain ⟨w, t, w', rfl, hw, hdenotes, hw'⟩ := h
  have hnil : Ends [] := nofun
  have hends : Ends (w' ++ []) := hnil.blank_append hw'
  have hskip : skip (w' ++ []) = [] := skip_append hw' nofun
  rw [List.append_nil] at hends hskip
  rw [read, skip_append hw (hdenotes.begins.append w').noBlank]
  rcases (value_reads depth).found hdenotes hends with hread | ⟨l, hread⟩
  · refine Or.inl ?_
    simp only [hread, hskip]
  · exact Or.inr ⟨l, by simp only [hread]⟩

/-- What is no limit is no JSON. -/
theorem not_isText_of_read {e : ReadError} (h : read depth cs = .error e)
    (he : ∀ l, e ≠ .limit l) (j : Raw) : ¬ IsText cs j := by
  intro hj
  have hfound : read depth cs = .ok j ∨ Refused (read depth cs) := read_of_isText hj
  rcases hfound with hread | ⟨l, hread⟩
  · cases h.symm.trans hread
  · exact he l (Except.error.inj (h.symm.trans hread))

theorem refused_of_textExceeds {l : Limit} (h : TextExceeds depth l cs) :
    Refused (read depth cs) := by
  obtain ⟨w, r, rfl, hw, hr⟩ := h
  obtain ⟨l', hread⟩ := (value_reads depth).refused hr
  rw [read, skip_append hw hr.begins.noBlank]
  exact ⟨l', by simp only [hread]⟩

/-- A value is read if and only if the text denotes it and passes no limit. -/
theorem read_eq_ok_iff {j : Raw} :
    read depth cs = .ok j ↔ IsText cs j ∧ ∀ l, ¬ TextExceeds depth l cs := by
  constructor
  · intro h
    refine ⟨isText_of_read h, fun l hl => ?_⟩
    have hrefused := refused_of_textExceeds hl
    rw [h] at hrefused
    exact not_refused_ok j hrefused
  · rintro ⟨htext, hno⟩
    rcases read_of_isText htext with h | ⟨l, h⟩
    · exact h
    · exact absurd (textExceeds_of_read h) (hno l)

end Text

/-! ## 7. Limits are met first -/

/-- A list is refused for what its first item is refused for. -/
theorem value_list_error {left : Nat} {e : ReadError} {r : List Symbol} (hr : Begins r)
    (h : value left r = .error e) : value (left + 1) (.char '[' :: r) = .error e := by
  have hitems : items left (value left) ']' r = itemsFrom left (value left) ']' (r.length + 1) r :=
    items_begins (Or.inl rfl) (w := []) nofun hr
  have hskip : skip r = r := skip_append (w := []) nofun hr.noBlank
  rw [value, hitems, itemsFrom, hskip, h]
  rfl

/-- Brackets that are opened deeper than may be are refused, whatever stands behind them. -/
theorem value_brackets (left : Nat) (r : List Symbol) :
    value left (List.replicate (left + 1) (.char '[') ++ r) = .error (.limit .tooDeep) := by
  induction left with
  | zero => rfl
  | succ left ih => exact value_list_error ⟨.char '[', _, rfl, by decide⟩ ih

theorem read_limit {depth : Nat} {l : Limit} {cs : List Symbol} (hcs : Begins cs)
    (h : value depth cs = .error (.limit l)) : read depth cs = .error (.limit l) := by
  have hskip : skip cs = cs := skip_append (w := []) nofun hcs.noBlank
  simp only [read, hskip, h]

end Json

end Recall
