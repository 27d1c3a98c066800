/-
Recall.Proofs.Query.Token — how a query is cut into tokens.

All that the scan of a query remembers is whether it is inside quotes. `quotedAfter` is what it
remembers at the end of a text. The quotes are counted by another pass, which looks back for an
escape where the scan looks ahead; `quotedAfter_eq` says that the two see the same quotes. So a text
whose quotes are even in number is left outside of them, and a blank behind it cuts:

* the tokens of two such queries with a space in between are the tokens of the one and then of the
  other (`split_append`);
* a plain text is its own token (`split_plain`), and any text that does not end
  in a backslash is the one token of its quoted form (`split_quoted`).

⚠️ A backslash at the end is the one thing that quoting cannot keep: the scan would take it for the
escape of the closing quote.
-/
import Recall.Proofs.Text.Chars
import Recall.Query.Token

namespace Recall

namespace Token

/-! ## 1. One character of the scan -/

/-- A text does not begin with a quote. -/
def NoQuoteAhead (cs : List Char) : Prop := cs.head? ≠ some '"'

theorem noQuoteAhead_append {a b : List Char} (ha : NoQuoteAhead a) (hb : NoQuoteAhead b) :
    NoQuoteAhead (a ++ b) := by
  cases a with
  | nil => exact hb
  | cons c r => exact ha

theorem noQuoteAhead_of_ne_cons {cs : List Char} (h : ∀ r, cs ≠ '"' :: r) : NoQuoteAhead cs := by
  intro hq
  cases cs with
  | nil => cases hq
  | cons c r => exact h r (by simpa using hq)

theorem marks_quote (quoted : Bool) (r : List Char) :
    marks quoted ('"' :: r) = marks (!quoted) r := by
  rw [marks.eq_3 _ _ _ (by simp), if_pos rfl]

/-- An ordinary character stays, or is a gap if it is a blank outside quotes. -/
theorem marks_char {c : Char} {r : List Char} (hc : c ≠ '"') (hesc : c = '\\' → NoQuoteAhead r)
    (quoted : Bool) :
    marks quoted (c :: r) =
      (if Chars.isBlank c && !quoted then none else some c) :: marks quoted r := by
  rw [marks.eq_3, if_neg hc]
  · split <;> rfl
  · rintro r' rfl rfl
    exact hesc rfl rfl

/-! ## 2. Inside and outside -/

/-- Whether the scan is inside quotes at the end of a text. -/
def quotedAfter (quoted : Bool) : List Char → Bool
  | [] => quoted
  | '\\' :: '"' :: r => quotedAfter quoted r
  | c :: r => quotedAfter (quoted ^^ (c == '"')) r

theorem decide_one_add_odd (n : Nat) : decide ((1 + n) % 2 = 1) = !decide (n % 2 = 1) := by
  rcases Nat.mod_two_eq_zero_or_one n with h | h <;> simp [Nat.add_mod, h]

/-- The scan is inside quotes where their number is odd. -/
theorem quotedAfter_eq (quoted : Bool) (cs : List Char) : ∀ escaped : Bool,
    (escaped = true → NoQuoteAhead cs) →
      quotedAfter quoted cs = (quoted ^^ decide (quotesFrom escaped cs % 2 = 1)) := by
  -- The scan takes a backslash and its quote in one step. So where it stands behind a backslash
  -- that the other pass remembers, no quote comes next, and the two do not fall out of step.
  fun_induction quotedAfter quoted cs with
  | case1 quoted => simp [quotesFrom]
  | case2 quoted r ih =>
    intro escaped _
    simpa [quotesFrom] using ih false (by simp)
  | case3 quoted c r hesc ih =>
    intro escaped hahead
    have hr : (c == '\\') = true → NoQuoteAhead r := by
      intro hc
      exact noQuoteAhead_of_ne_cons fun r' => hesc r' (by simpa using hc)
    rw [quotesFrom, ih (c == '\\') hr]
    by_cases hc : c = '"'
    · have hescaped : escaped = false := by
        by_contra h
        exact hahead (by simpa using h) (by rw [hc]; rfl)
      simp [hc, hescaped, decide_one_add_odd]
    · simp [hc, beq_false_of_ne hc]

theorem quotedAfter_of_even {cs : List Char} (h : quotes cs % 2 = 0) :
    quotedAfter false cs = false := by
  rw [quotedAfter_eq false cs false (by simp), ← quotes, h]
  rfl

/-- A scan of two texts is the scan of one and then of the other. -/
theorem marks_append (quoted : Bool) (a : List Char) {b : List Char} (hb : NoQuoteAhead b) :
    marks quoted (a ++ b) = marks quoted a ++ marks (quotedAfter quoted a) b := by
  fun_induction quotedAfter quoted a with
  | case1 quoted => rfl
  | case2 quoted r ih =>
    rw [List.cons_append, List.cons_append, marks, ih, marks, List.cons_append]
  | case3 quoted c r hesc ih =>
    by_cases hc : c = '"'
    · subst hc
      rw [List.cons_append, marks_quote, marks_quote]
      simpa using ih
    · have hr : c = '\\' → NoQuoteAhead r := by
        intro hc
        exact noQuoteAhead_of_ne_cons fun r' => hesc r' hc
      rw [List.cons_append, marks_char hc hr,
        marks_char hc (fun h => noQuoteAhead_append (hr h) hb), List.cons_append]
      simpa [beq_false_of_ne hc] using ih

/-- One more character counts if it is a quote and no backslash stands before it. -/
theorem quotesFrom_concat (c : Char) : ∀ (cs : List Char) (escaped : Bool),
    quotesFrom escaped (cs ++ [c]) = quotesFrom escaped cs +
      if c = '"' ∧ (cs.getLast?.map (· == '\\')).getD escaped = false then 1 else 0
  | [], escaped => by
      rw [List.nil_append, quotesFrom, quotesFrom, quotesFrom, Nat.add_zero, Nat.zero_add]
      rfl
  | d :: r, escaped => by
      rw [List.cons_append, quotesFrom, quotesFrom, quotesFrom_concat c r, Nat.add_assoc]
      cases r with
      | nil => rfl
      | cons e s =>
        rw [List.getLast?_cons_cons]
        obtain ⟨x, hx⟩ := Option.ne_none_iff_exists'.mp
          (fun hnil => List.cons_ne_nil e s (List.getLast?_eq_none_iff.mp hnil))
        rw [hx]
        rfl

theorem quotes_concat (cs : List Char) (c : Char) : quotes (cs ++ [c]) =
    quotes cs + if c = '"' ∧ cs.getLast? ≠ some '\\' then 1 else 0 := by
  rw [quotes, quotesFrom_concat, ← quotes]
  cases cs.getLast? <;> simp

theorem quotes_concat_of_ne {c : Char} (hc : c ≠ '"') (cs : List Char) :
    quotes (cs ++ [c]) = quotes cs := by
  simp [quotes_concat, hc]

/-! ## 3. Two queries in a row -/

theorem quotesFrom_append_space (b : List Char) : ∀ (a : List Char) (escaped : Bool),
    quotesFrom escaped (a ++ ' ' :: b) = quotesFrom escaped a + quotes b
  | [], escaped => by simp [quotesFrom, quotes]
  | c :: r, escaped => by
      rw [List.cons_append, quotesFrom, quotesFrom, quotesFrom_append_space b r, Nat.add_assoc]

theorem quotes_append_space (a b : List Char) : quotes (a ++ ' ' :: b) = quotes a + quotes b :=
  quotesFrom_append_space b a false

theorem quotes_join_cons (p : List Char) : ∀ ps : List (List Char),
    quotes (Chars.join [' '] (p :: ps)) = quotes p + quotes (Chars.join [' '] ps)
  | [] => rfl
  | q :: r => by
      rw [Chars.join, List.append_assoc, List.singleton_append, quotes_append_space]

/-- Outside quotes a space is a gap. -/
theorem marks_append_space {a : List Char} (ha : quotes a % 2 = 0) (b : List Char) :
    marks false (a ++ ' ' :: b) = marks false a ++ none :: marks false b := by
  rw [marks_append false a (by simp [NoQuoteAhead]), quotedAfter_of_even ha,
    marks_char (by decide) (fun h => absurd h (by decide))]
  rfl

theorem split_of_even {cs : List Char} (h : quotes cs % 2 = 0) :
    split cs = (Chars.fields Option.isNone (marks false cs)).map fun piece => piece.filterMap id :=
  if_neg (by omega)

/-- The tokens of two queries with balanced quotes, one after the other. -/
theorem split_append {a b : List Char} (ha : quotes a % 2 = 0) (hb : quotes b % 2 = 0) :
    split (a ++ ' ' :: b) = split a ++ split b := by
  have hab : quotes (a ++ ' ' :: b) % 2 = 0 := by
    rw [quotes_append_space]
    omega
  rw [split_of_even hab, split_of_even ha, split_of_even hb, marks_append_space ha,
    Chars.fields_append_cons rfl, List.map_append]

/-- Queries with balanced quotes in a row have balanced quotes, and the tokens of each in turn. -/
theorem split_join : ∀ {pieces : List (List Char)}, (∀ p ∈ pieces, quotes p % 2 = 0) →
    quotes (Chars.join [' '] pieces) % 2 = 0 ∧
      split (Chars.join [' '] pieces) = pieces.flatMap split
  | [], _ => by decide
  | [p], h => by simpa [Chars.join] using h p List.mem_cons_self
  | p :: q :: r, h => by
      have hp := h p List.mem_cons_self
      obtain ⟨heven, hsplit⟩ := split_join fun x hx => h x (List.mem_cons_of_mem p hx)
      constructor
      · rw [quotes_join_cons]
        omega
      · rw [Chars.join, List.append_assoc, List.singleton_append, split_append hp heven, hsplit,
          ← List.flatMap_cons]

/-- Where each piece has balanced quotes and is one token, these are the tokens of the row. -/
theorem split_join_map {α : Type} {f g : α → List Char} {as : List α}
    (h : ∀ a ∈ as, quotes (f a) % 2 = 0 ∧ split (f a) = [g a]) :
    split (Chars.join [' '] (as.map f)) = as.map g := by
  have heven : ∀ p ∈ as.map f, quotes p % 2 = 0 := by
    simp only [List.forall_mem_map]
    exact fun a ha => (h a ha).1
  rw [(split_join heven).2, List.flatMap_map, List.map_eq_flatMap]
  exact List.flatMap_congr fun a ha => (h a ha).2

/-- The quotes of a query that count are even in number. -/
def Balanced (raw : String) : Prop := quotes raw.toList % 2 = 0

instance (raw : String) : Decidable (Balanced raw) :=
  inferInstanceAs (Decidable (_ = _))

theorem toList_append_space (a b : String) :
    (a ++ " " ++ b).toList = a.toList ++ ' ' :: b.toList := by
  simp

theorem Balanced.append {a b : String} (ha : Balanced a) (hb : Balanced b) :
    Balanced (a ++ " " ++ b) := by
  unfold Balanced at *
  rw [toList_append_space, quotes_append_space]
  omega

theorem tokens_append {a b : String} (ha : Balanced a) (hb : Balanced b) :
    tokens (a ++ " " ++ b) = tokens a ++ tokens b := by
  rw [tokens, toList_append_space, split_append ha hb, List.map_append, ← tokens, ← tokens]

/-- No token is empty. -/
theorem ne_nil_of_mem_split {cs t : List Char} (h : t ∈ split cs) : t ≠ [] := by
  unfold split at h
  split at h
  · exact Chars.ne_nil_of_mem_fields h
  · obtain ⟨piece, hpiece, rfl⟩ := List.mem_map.mp h
    cases hp : piece with
    | nil => exact absurd hp (Chars.ne_nil_of_mem_fields hpiece)
    | cons m rest =>
      have hm := Chars.not_of_mem_fields hpiece m (hp ▸ List.mem_cons_self)
      cases m with
      | none => cases hm
      | some c => simp

theorem ne_empty_of_mem_tokens {raw t : String} (h : t ∈ tokens raw) : t ≠ "" := by
  obtain ⟨cs, hcs, rfl⟩ := List.mem_map.mp h
  simpa using ne_nil_of_mem_split hcs

/-! ## 4. Typing a token -/

/-- A text with a backslash in front of every quote. -/
def escape : List Char → List Char
  | [] => []
  | c :: r => if c = '"' then '\\' :: '"' :: escape r else c :: escape r

/-- A text between quotes. -/
def quoted (cs : List Char) : List Char :=
  '"' :: escape cs ++ ['"']

theorem noQuoteAhead_escape (cs : List Char) : NoQuoteAhead (escape cs) := by
  cases cs with
  | nil => simp [escape, NoQuoteAhead]
  | cons c r =>
    rw [escape]
    split
    · simp [NoQuoteAhead]
    · rename_i hc
      simpa [NoQuoteAhead] using hc

/-- Without quotes the marks are the characters, with gaps for the blanks. -/
theorem marks_unquoted {cs : List Char} (h : '"' ∉ cs) :
    marks false cs = cs.map fun c => if Chars.isBlank c then none else some c := by
  induction cs with
  | nil => rfl
  | cons c r ih =>
    rw [List.mem_cons, not_or] at h
    have hahead : NoQuoteAhead r := fun hq => h.2 (List.mem_of_mem_head? hq)
    rw [marks_char (Ne.symm h.1) (fun _ => hahead), ih h.2]
    simp

theorem quotesFrom_unquoted {cs : List Char} (h : '"' ∉ cs) (escaped : Bool) :
    quotesFrom escaped cs = 0 := by
  induction cs generalizing escaped with
  | nil => rfl
  | cons c r ih =>
    rw [List.mem_cons, not_or] at h
    rw [quotesFrom, ih h.2]
    simp [Ne.symm h.1]

theorem quotes_unquoted {cs : List Char} (h : '"' ∉ cs) : quotes cs = 0 :=
  quotesFrom_unquoted h false

theorem not_mem_of_plain {w : List Char} (h : Chars.Plain w) : '"' ∉ w :=
  fun hq => (h '"' hq).2 rfl

theorem quotes_plain {w : List Char} (h : Chars.Plain w) : quotes w = 0 :=
  quotes_unquoted (not_mem_of_plain h)

theorem filterMap_id_map_some (cs : List Char) : (cs.map some).filterMap id = cs := by
  simp [List.filterMap_map]

/-- What the marks of a token look like when nothing cuts it. -/
theorem split_eq_singleton {raw t : List Char} (heven : quotes raw % 2 = 0)
    (hmarks : marks false raw = t.map some) (ht : t ≠ []) : split raw = [t] := by
  have hne : t.map some ≠ [] := by simpa using ht
  rw [split_of_even heven, hmarks, Chars.fields_of_forall_not hne (by simp), List.map_singleton,
    filterMap_id_map_some]

/-- Without quotes the tokens are the words. -/
theorem split_unquoted {cs : List Char} (h : '"' ∉ cs) : split cs = Chars.words cs := by
  have hgap : (Option.isNone ∘ fun c => if Chars.isBlank c then none else some c) =
      Chars.isBlank := by
    funext c
    cases hc : Chars.isBlank c <;> simp [hc]
  rw [split_of_even (by rw [quotes_unquoted h]), marks_unquoted h, Chars.fields_map, hgap,
    List.map_map, ← Chars.words]
  refine (List.map_congr_left ?_).trans (List.map_id _)
  intro w hw
  have hword : ∀ c ∈ w, Chars.isBlank c = false := Chars.not_of_mem_fields hw
  have hmarks : (w.map fun c => if Chars.isBlank c then none else some c) = w.map some := by
    refine List.map_congr_left ?_
    intro c hc
    simp [hword c hc]
  rw [Function.comp_apply, hmarks, filterMap_id_map_some, id]

theorem words_plain {w : List Char} (hne : w ≠ []) (h : Chars.Plain w) : Chars.words w = [w] :=
  Chars.fields_of_forall_not hne fun c hc => (h c hc).1

theorem split_plain {w : List Char} (hne : w ≠ []) (h : Chars.Plain w) : split w = [w] := by
  rw [split_unquoted (not_mem_of_plain h), words_plain hne h]

/-- A plain text in front of a query is a token of its own, be the quotes of the query balanced or
not. -/
theorem split_plain_append {w : List Char} (hne : w ≠ []) (h : Chars.Plain w) (b : List Char) :
    split (w ++ ' ' :: b) = w :: split b := by
  have hquotes : quotes (w ++ ' ' :: b) = quotes b := by
    rw [quotes_append_space, quotes_plain h, Nat.zero_add]
  by_cases hodd : quotes b % 2 = 1
  · rw [split, if_pos (by rwa [hquotes]), split, if_pos hodd, Chars.words,
      Chars.fields_append_cons (by decide), ← Chars.words, ← Chars.words, words_plain hne h,
      List.singleton_append]
  · rw [split_append (by rw [quotes_plain h]) (by omega), split_plain hne h, List.singleton_append]

/-- Inside quotes the escaped text is read back, up to the closing quote. -/
theorem marks_escape : ∀ {cs : List Char}, cs.getLast? ≠ some '\\' →
    marks true (escape cs ++ ['"']) = cs.map some
  | [], _ => by simp [escape, marks_quote, marks]
  | c :: r, h => by
      have hr : r.getLast? ≠ some '\\' := by
        cases r with
        | nil => simp
        | cons d s => simpa using h
      rw [escape]
      split
      · rename_i hc
        rw [List.cons_append, List.cons_append, marks, marks_escape hr, hc]
        rfl
      · rename_i hc
        -- What follows a backslash is not the closing quote, for the text does not end here, and an
        -- escaped quote begins with a backslash of its own.
        have hahead : c = '\\' → NoQuoteAhead (escape r ++ ['"']) := by
          rintro rfl
          cases r with
          | nil => exact absurd rfl h
          | cons d s =>
            have hd := noQuoteAhead_escape (d :: s)
            cases he : escape (d :: s) with
            | nil =>
              rw [escape] at he
              split at he <;> cases he
            | cons x y => rwa [he] at hd
        rw [List.cons_append, marks_char hc hahead, marks_escape hr]
        simp

theorem quotesFrom_escape : ∀ (cs : List Char) (escaped : Bool), quotesFrom escaped (escape cs) = 0
  | [], _ => rfl
  | c :: r, escaped => by
      rw [escape]
      split
      · simp [quotesFrom, quotesFrom_escape r]
      · rename_i hc
        simp [quotesFrom, hc, quotesFrom_escape r]

theorem getLast?_escape (cs : List Char) : (escape cs).getLast? = cs.getLast? := by
  induction cs with
  | nil => rfl
  | cons c r ih =>
    rw [escape]
    split
    · rename_i hc
      simp [List.getLast?_cons, ih, hc]
    · simp [List.getLast?_cons, ih]

/-- The quotes around a text count, but for the closing one if a backslash stands before it. -/
theorem quotes_quoted_eq (cs : List Char) :
    quotes (quoted cs) = if cs.getLast? = some '\\' then 1 else 2 := by
  have hopen : quotes ('"' :: escape cs) = 1 := by
    simp [quotes, quotesFrom, quotesFrom_escape]
  have hlast : ('"' :: escape cs).getLast? = some '\\' ↔ cs.getLast? = some '\\' := by
    rw [List.getLast?_cons, getLast?_escape]
    cases cs.getLast? <;> simp
  rw [quoted, quotes_concat, hopen]
  by_cases h : cs.getLast? = some '\\'
  · simp [h, hlast]
  · simp [h, hlast]

theorem quotes_quoted {cs : List Char} (h : cs.getLast? ≠ some '\\') : quotes (quoted cs) = 2 := by
  rw [quotes_quoted_eq, if_neg h]

theorem marks_quoted {cs : List Char} (h : cs.getLast? ≠ some '\\') :
    marks false (quoted cs) = cs.map some := by
  rw [quoted, List.cons_append, marks_quote]
  exact marks_escape h

/-- A text that does not end in a backslash is the token of its quoted form. -/
theorem split_quoted {cs : List Char} (hne : cs ≠ []) (h : cs.getLast? ≠ some '\\') :
    split (quoted cs) = [cs] :=
  split_eq_singleton (by rw [quotes_quoted h]) (marks_quoted h) hne

end Token

end Recall
