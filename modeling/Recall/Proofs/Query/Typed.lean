/-
Recall.Proofs.Query.Typed — which lists of tokens can be typed.

There is an escape for a quote and none for a backslash. Between quotes a backslash stands for itself
unless a quote is next, so the only token that quoting cannot keep is one that ends in a backslash: the
closing quote would be taken for an escaped one. Outside quotes, with a space or nothing behind it, such
a backslash is harmless. A token is therefore typed in two parts (`spelling`): what stands before its
last run of backslashes between quotes, and these backslashes behind the closing quote. Any list of
tokens that are not empty can be typed in this way (`tokens_row_spelling`).

That the quotes alone will not do where a token ends in a backslash is a matter of counting
(`getLast?_ne_of_split_quoted`). The scan drops one backslash for each quote that is escaped and no
other (`count_split_of_even`, `count_split_of_odd`). In a row of quoted tokens these are the
backslashes that quoting put there, if all the quotes around the tokens count; and one more for each
that does not.
-/
import Mathlib.Data.List.ReduceOption
import Recall.Proofs.Query.Token
import Recall.Proofs.Text.Spacing

namespace Recall

namespace Token

/-! ## 1. Backslashes behind the closing quote -/

theorem quotes_append_of_notMem : ∀ {bs : List Char}, '"' ∉ bs → ∀ cs : List Char,
    quotes (cs ++ bs) = quotes cs
  | [], _, cs => by rw [List.append_nil]
  | b :: r, h, cs => by
      rw [List.mem_cons, not_or] at h
      rw [List.append_cons, quotes_append_of_notMem h.2, quotes_concat_of_ne (Ne.symm h.1)]

/-- How any token is typed: between quotes, but for the backslashes that it ends in. -/
def spelling (cs : List Char) : List Char :=
  quoted (cs.rdropWhile (· == '\\')) ++ cs.rtakeWhile (· == '\\')

theorem getLast?_rdropWhile_ne (cs : List Char) :
    (cs.rdropWhile (· == '\\')).getLast? ≠ some '\\' := by
  have hstays : Chars.dropRight (· == '\\') (cs.rdropWhile (· == '\\')) =
      cs.rdropWhile (· == '\\') := by
    rw [Chars.dropRight_eq_rdropWhile, List.rdropWhile_idempotent]
  intro h
  exact absurd (Chars.dropRight_eq_self_iff.mp hstays '\\' h) (by decide)

theorem eq_backslash_of_mem {cs : List Char} {c : Char} (h : c ∈ cs.rtakeWhile (· == '\\')) :
    c = '\\' := by
  simpa using List.mem_rtakeWhile_imp h

theorem quote_notMem_rtakeWhile (cs : List Char) : '"' ∉ cs.rtakeWhile (· == '\\') := fun h =>
  absurd (eq_backslash_of_mem h) (by decide)

theorem quotes_spelling (cs : List Char) : quotes (spelling cs) = 2 := by
  rw [spelling, quotes_append_of_notMem (quote_notMem_rtakeWhile cs),
    quotes_quoted (getLast?_rdropWhile_ne cs)]

/-- The scan is outside quotes again when it gets to the backslashes, and no quote is ahead. -/
theorem marks_spelling (cs : List Char) : marks false (spelling cs) = cs.map some := by
  have hlast := getLast?_rdropWhile_ne cs
  have hnone := quote_notMem_rtakeWhile cs
  have hahead : NoQuoteAhead (cs.rtakeWhile (· == '\\')) := fun h =>
    hnone (List.mem_of_mem_head? h)
  have hbackslashes : marks false (cs.rtakeWhile (· == '\\')) =
      (cs.rtakeWhile (· == '\\')).map some := by
    rw [marks_unquoted hnone]
    refine List.map_congr_left fun c hc => ?_
    rw [eq_backslash_of_mem hc]
    rfl
  rw [spelling, marks_append false _ hahead, quotedAfter_of_even (by rw [quotes_quoted hlast]),
    marks_quoted hlast, hbackslashes, ← List.map_append, List.rdropWhile_append_rtakeWhile]

theorem split_spelling {cs : List Char} (hne : cs ≠ []) : split (spelling cs) = [cs] :=
  split_eq_singleton (by rw [quotes_spelling]) (marks_spelling cs) hne

/-! ## 2. Tokens in a row -/

/-- Tokens with a space between neighbours, each of them typed by `f`. -/
def row (f : List Char → List Char) (ts : List String) : String :=
  Text.join " " (ts.map fun t => String.ofList (f t.toList))

theorem toList_row (f : List Char → List Char) (ts : List String) :
    (row f ts).toList = Chars.join [' '] (ts.map fun t => f t.toList) := by
  simp [row, Function.comp_def]

theorem tokens_eq_iff {raw : String} {ts : List String} :
    tokens raw = ts ↔ split raw.toList = ts.map String.toList := by
  rw [tokens]
  constructor
  · rintro rfl
    simp [Function.comp_def]
  · intro h
    rw [h]
    simp [Function.comp_def]

/-- If each token is typed in a way that it is read back by itself, the row is. -/
theorem tokens_row {f : List Char → List Char} {ts : List String}
    (h : ∀ t ∈ ts, quotes (f t.toList) % 2 = 0 ∧ split (f t.toList) = [t.toList]) :
    tokens (row f ts) = ts := by
  rw [tokens_eq_iff, toList_row]
  exact split_join_map h

theorem tokens_row_spelling {ts : List String} (h : ∀ t ∈ ts, t ≠ "") :
    tokens (row spelling ts) = ts := by
  refine tokens_row fun t ht => ⟨by rw [quotes_spelling], split_spelling ?_⟩
  simpa using h t ht

example : row spelling ["say \"hi\"", "c:\\"] = "\"say \\\"hi\\\"\" \"c:\"\\" := by decide +kernel

theorem tokens_row_quoted {ts : List String}
    (h : ∀ t ∈ ts, t ≠ "" ∧ t.toList.getLast? ≠ some '\\') : tokens (row quoted ts) = ts := by
  refine tokens_row fun t ht => ?_
  obtain ⟨hne, hlast⟩ := h t ht
  exact ⟨by rw [quotes_quoted hlast], split_quoted (by simpa using hne) hlast⟩

/-! ## 3. What the scan drops -/

/-- Of the backslashes the scan drops one for each quote that does not count. -/
theorem count_marks (quoted : Bool) (cs : List Char) : ∀ escaped : Bool,
    (escaped = true → NoQuoteAhead cs) →
      (marks quoted cs).reduceOption.count '\\' + cs.count '"' =
        cs.count '\\' + quotesFrom escaped cs := by
  -- The scan and the count keep in step as they do in `quotedAfter_eq`.
  fun_induction quotedAfter quoted cs with
  | case1 quoted => simp [marks, quotesFrom]
  | case2 quoted r ih =>
    intro escaped _
    have hr := ih false (by simp)
    simp [marks, quotesFrom]
    omega
  | case3 quoted c r hesc ih =>
    intro escaped hahead
    have hnext : c = '\\' → NoQuoteAhead r := fun hc =>
      noQuoteAhead_of_ne_cons fun r' => hesc r' hc
    have hr := ih (c == '\\') fun hc => hnext (by simpa using hc)
    by_cases hc : c = '"'
    · have hescaped : escaped = false := by
        by_contra h
        exact hahead (by simpa using h) (by rw [hc]; rfl)
      subst hc
      simp [marks_quote, quotesFrom, hescaped] at hr ⊢
      omega
    · by_cases hgap : (Chars.isBlank c && !quoted) = true
      · have hne : c ≠ '\\' := by
          rintro rfl
          exact absurd (Bool.and_eq_true_iff.mp hgap).1 (by decide)
        simp [marks_char hc hnext, hgap, quotesFrom, hc, hne, beq_false_of_ne] at hr ⊢
        omega
      · simp [marks_char hc hnext, hgap, quotesFrom, hc, beq_false_of_ne, List.count_cons] at hr ⊢
        omega

/-- All that the scan makes of a query is in its tokens, but for the gaps. -/
theorem flatten_split_of_even {cs : List Char} (h : quotes cs % 2 = 0) :
    (split cs).flatten = (marks false cs).reduceOption := by
  rw [split_of_even h, ← List.filterMap_flatten, Chars.flatten_fields, List.filterMap_filter,
    List.reduceOption]
  refine List.filterMap_congr fun m _ => ?_
  cases m <;> rfl

/-- A query whose quotes are even in number keeps the backslashes that escape nothing. -/
theorem count_split_of_even {cs : List Char} (h : quotes cs % 2 = 0) :
    (split cs).flatten.count '\\' + cs.count '"' = cs.count '\\' + quotes cs := by
  rw [flatten_split_of_even h]
  exact count_marks false cs false (by simp)

/-- One whose quotes are odd in number keeps every quote. -/
theorem count_split_of_odd {cs : List Char} (h : quotes cs % 2 = 1) :
    (split cs).flatten.count '"' = cs.count '"' := by
  rw [split, if_pos h, Chars.flatten_words]
  exact List.count_filter (by decide)

/-! ## 4. Quoted tokens in a row -/

theorem count_quoted (cs : List Char) :
    (quoted cs).count '"' = cs.count '"' + 2 ∧
      (quoted cs).count '\\' = cs.count '\\' + cs.count '"' := by
  have hescape : (escape cs).count '"' = cs.count '"' ∧
      (escape cs).count '\\' = cs.count '\\' + cs.count '"' := by
    induction cs with
    | nil => simp [escape]
    | cons c r ih =>
      rw [escape]
      split
      · rename_i hc
        simp [hc, ih.1, ih.2]
        omega
      · rename_i hc
        simp [List.count_cons, hc, ih.1, ih.2]
        omega
  simp [quoted, hescape.1, hescape.2]

/-- Of the quotes around the tokens of a row all count, but for the closing ones behind a
backslash. -/
theorem quotes_join_quoted (css : List (List Char)) :
    quotes (Chars.join [' '] (css.map quoted)) + css.countP (·.getLast? == some '\\') =
      2 * css.length := by
  induction css with
  | nil => rfl
  | cons cs r ih =>
    rw [List.map_cons, quotes_join_cons, quotes_quoted_eq, List.countP_cons, List.length_cons]
    by_cases h : cs.getLast? = some '\\'
    · simp [h]
      omega
    · simp [h]
      omega

theorem count_join_quoted (css : List (List Char)) :
    (Chars.join [' '] (css.map quoted)).count '"' = css.flatten.count '"' + 2 * css.length ∧
      (Chars.join [' '] (css.map quoted)).count '\\' =
        css.flatten.count '\\' + css.flatten.count '"' := by
  rw [Chars.count_join (by decide), Chars.count_join (by decide)]
  induction css with
  | nil => simp
  | cons cs r ih =>
    obtain ⟨hquotes, hbackslashes⟩ := count_quoted cs
    simp only [List.map_cons, List.flatten_cons, List.count_append, List.length_cons, hquotes,
      hbackslashes, ih.1, ih.2]
    omega

/-- A row of quoted tokens that is read back has no token that ends in a backslash. Each such token
would cost the row a quote that counts, and the tokens a backslash. -/
theorem getLast?_ne_of_split_quoted {css : List (List Char)}
    (h : split (Chars.join [' '] (css.map quoted)) = css) :
    ∀ cs ∈ css, cs.getLast? ≠ some '\\' := by
  obtain ⟨hquotes, hbackslashes⟩ := count_join_quoted css
  have hcounted := quotes_join_quoted css
  have hnone : css.countP (·.getLast? == some '\\') = 0 := by
    rcases Nat.mod_two_eq_zero_or_one (quotes (Chars.join [' '] (css.map quoted)))
      with heven | hodd
    · have hkept := count_split_of_even heven
      rw [h] at hkept
      omega
    · have hkept := count_split_of_odd hodd
      rw [h] at hkept
      omega
  intro cs hcs
  simpa using List.countP_eq_zero.mp hnone cs hcs

/-! ## 5. Every list of tokens -/

/-- **Every list of tokens can be typed.** The lists of tokens that queries are cut into are all the
lists of texts that are not empty, whatever blanks, quotes and backslashes are in them. If each token is
put between quotes with a backslash in front of every quote inside, the row of them is such a query
exactly when no token is empty or ends in a backslash. -/
theorem exists_tokens_eq_iff (ts : List String) :
    ((∃ raw, tokens raw = ts) ↔ ∀ t ∈ ts, t ≠ "") ∧
      (tokens (row quoted ts) = ts ↔ ∀ t ∈ ts, t ≠ "" ∧ t.toList.getLast? ≠ some '\\') := by
  constructor
  · constructor
    · rintro ⟨raw, rfl⟩ t ht
      exact ne_empty_of_mem_tokens ht
    · intro h
      exact ⟨_, tokens_row_spelling h⟩
  · constructor
    · intro h t ht
      refine ⟨ne_empty_of_mem_tokens (h ▸ ht), ?_⟩
      have hsplit : split (Chars.join [' '] ((ts.map String.toList).map quoted)) =
          ts.map String.toList := by
        rw [List.map_map]
        rw [tokens_eq_iff, toList_row] at h
        exact h
      exact getLast?_ne_of_split_quoted hsplit t.toList (List.mem_map_of_mem ht)
    · exact tokens_row_quoted

end Token

end Recall
