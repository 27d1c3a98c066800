/-
Recall.Proofs.Yaml.Block — the tokens of a block of lines.

A line `key: value` of bare words is read in three steps: the key, which is then a candidate, the
colon, which makes it a key and opens the block if none is open at its column, and the value, with
which the indentation of the next line is passed. Each step is an equation on the whole state
(`step_key`, `step_colon`, `step_value`), they are put together for a line (`steps_line`) and, by
recursion on the lines, for a block (`steps_block`). `tokens_section` is the outcome for a section: a
name, and a block below it.
-/
import Recall.Proofs.Yaml.Bare

namespace Recall

namespace Yaml

namespace Scan

variable {w r : List Char} {c c' : Cursor} {m : Nat} {ms : List Nat} {a : Bool} {ts : List Token}

/-- A state outside flow collections in which nothing may turn out to be a key. -/
def idle (c : Cursor) (m : Nat) (ms : List Nat) (a : Bool) (ts : List Token) : Scan :=
  ⟨c, m, ms, [none], a, ts⟩

/-- The same behind something that may turn out to be a key. -/
def held (c : Cursor) (m : Nat) (ms : List Nat) (k : Candidate) (ts : List Token) : Scan :=
  ⟨c, m, ms, [some k], false, ts⟩

/-! ## 1. Between tokens -/

theorem skip_of_gap {s : Scan} {rest : List Char} {crossed : Bool}
    (hmark : s.cursor.rest.head? ≠ some '\uFEFF') (hgap : gap false s.cursor.rest = (crossed, rest))
    (hflow : s.inFlow = false) :
    s.skip = { s.dropTo rest with keyAllowed := crossed || s.keyAllowed } := by
  have hflow' : (s.dropTo rest).inFlow = false := hflow
  rw [skip]
  split
  rename_i crossed' rest' heq
  split at heq
  · rename_i hrest
    rw [hrest] at hmark
    exact absurd rfl hmark
  · rw [hgap] at heq
    cases heq
    cases crossed
    · rfl
    · simp only [hflow', Bool.not_false, Bool.and_true, if_true, Bool.true_or]

theorem unwind_of_le {s : Scan} {limit : Nat} (h : s.margin ≤ limit) : s.unwind limit = s := by
  obtain ⟨c, m, ms, ks, a, ts⟩ := s
  have hkept : unwindFrom limit ms m ts = (ms, m, ts) := by
    cases ms with
    | nil => rfl
    | cons _ _ => rw [unwindFrom, if_neg (Nat.not_lt.mpr h)]
  rw [unwind]
  split
  · rfl
  · simp only [hkept]

/-- What the next step is depends on the state in front of the next token alone. -/
theorem step_congr {s s' : Scan} (h : s.skip = s'.skip) : s.step = s'.step := by
  rw [step, step, h]

theorem step_of_kept {s s' : Scan} (hskip : s.skip = s') (hstale : s'.forgetStale = .ok s')
    (hmargin : s'.margin ≤ s'.cursor.column + 1) : s.step = s'.token := by
  rw [step, hskip, hstale]
  exact congrArg token (unwind_of_le hmargin)

theorem forgetStale_idle : (idle c m ms a ts).forgetStale = .ok (idle c m ms a ts) := rfl

/-! ## 2. The start of a line -/

/-- A key may begin at a cursor, once the gap in front of it has been passed. -/
theorem skip_idle (h : StartsLine c.rest) : (idle c m ms a ts).skip = idle c m ms a ts := by
  obtain ⟨cs, i, l, k⟩ := c
  have hmark : cs.head? ≠ some '\uFEFF' := fun heq => absurd (h _ heq) (by decide)
  rw [skip_of_gap hmark (gap_of_startsLine h) rfl]
  simp [idle, dropTo, Cursor.dropTo_self]

/-- The line end behind a key whose value is a block below it. -/
theorem skip_line (h : StartsLine r) (i l k n : Nat) :
    (idle ⟨'\n' :: (List.replicate n ' ' ++ r), i, l, k⟩ m ms a ts).skip =
      idle ⟨r, i + 1 + n, l + 1, n⟩ m ms true ts := by
  have hdrop : Cursor.dropTo ⟨'\n' :: (List.replicate n ' ' ++ r), i, l, k⟩ r =
      ⟨r, i + 1 + n, l + 1, n⟩ := Cursor.dropTo_line (w := []) (by simp) r i l k n
  rw [skip_of_gap (by simp [idle]) (gap_line n h) rfl]
  simp [idle, dropTo, hdrop]

/-! ## 3. Three steps for a line -/

theorem token_of_isBare (hw : IsBare w) (r : List Char) (i l k : Nat) :
    (idle ⟨w ++ r, i, l, k⟩ m ms a ts).token = (idle ⟨w ++ r, i, l, k⟩ m ms a ts).plainScalar := by
  obtain ⟨c, t, rfl, hc⟩ := hw.exists_eq_cons
  have hmark : startsMark (c :: (t ++ r)) = false :=
    startsMark_of_startsLine 0 (hw.startsLine r)
  rw [startsMark, Bool.or_eq_false_iff] at hmark
  have hne : ∀ d, isBareChar d = false → ¬ c = d := fun d => ne_of_isBareChar hc
  have hplain : startsPlain false (c :: (t ++ r)) = true := by
    simp (disch := decide) [startsPlain, isGap_of_isBareChar hc, hne]
  simp (disch := decide) [token, idle, inFlow, hmark.1, hmark.2, hplain, hne]

/-- What begins where a key may begin is remembered. -/
theorem remember_idle : (idle c m ms true ts).remember =
    .ok { held c m ms ⟨ts.length, c.index, c.line, c.column, m == c.column + 1⟩ ts with
      keyAllowed := true } := by
  simp only [remember, idle, held, forget, candidate, setCandidate, inFlow]
  rfl

/-- A key is read. It stays a candidate until the colon. -/
theorem step_key (hw : IsBare w) (hr : startsGap r = true) {k : Nat} (hm : m ≤ k + 1) (i l : Nat) :
    (idle ⟨w ++ ':' :: r, i, l, k⟩ m ms true ts).step =
      .ok (held ⟨':' :: r, i + w.length, l, k + w.length⟩ m ms ⟨ts.length, i, l, k, m == k + 1⟩
        (.scalar true (String.ofList w) :: ts)) := by
  have hskip : (idle ⟨w ++ ':' :: r, i, l, k⟩ m ms true ts).skip =
      idle ⟨w ++ ':' :: r, i, l, k⟩ m ms true ts := skip_idle (hw.startsLine _)
  have hdrop := Cursor.dropTo_append (fun c hc => passable_of_isBareChar (hw.2 c hc)) (':' :: r) i l k
  rw [step_of_kept hskip forgetStale_idle hm, token_of_isBare hw, plainScalar, remember_idle]
  simp only [bind, Except.bind, pure, Except.pure]
  simp [held, inFlow, plain_key hw hr, dropTo, hdrop, push]

section Colon

variable {i l k : Nat} {key : Candidate}

theorem skip_held :
    (held ⟨':' :: r, i, l, k⟩ m ms key ts).skip = held ⟨':' :: r, i, l, k⟩ m ms key ts := by
  rw [skip_of_gap (by simp [held]) (show _ = (false, ':' :: r) from rfl) rfl]
  simp [held, dropTo, Cursor.dropTo_self]

/-- A candidate holds on its line for 1024 characters. -/
theorem forgetStale_held (hline : key.line = c.line) (hindex : c.index - key.index ≤ 1024) :
    (held c m ms key ts).forgetStale = .ok (held c m ms key ts) := by
  simp [forgetStale, held, isStale, hline, Nat.not_lt.mpr hindex]

theorem token_held (hr : startsGap r = true) :
    (held ⟨':' :: r, i, l, k⟩ m ms key ts).token = (held ⟨':' :: r, i, l, k⟩ m ms key ts).value := by
  have hdocument : startsDocument (':' :: r) = false := rfl
  have hend : endsDocument (':' :: r) = false := rfl
  simp [token, held, hdocument, hend, hr]

end Colon

/-- The colon makes a key of the candidate, which opens a block to the right of the margin. -/
theorem step_colon (hr : startsGap r = true) {k k' i i' l : Nat} {q : Bool} {t : Token}
    (hi : i' - i ≤ 1024) (hm : m ≤ k' + 1) :
    (held ⟨':' :: r, i', l, k'⟩ m ms ⟨ts.length, i, l, k, q⟩ (t :: ts)).step =
      .ok (if m ≤ k then
          idle ⟨r, i' + 1, l, k' + 1⟩ (k + 1) (m :: ms) false
            (.value :: t :: .key :: .blockMappingStart :: ts)
        else idle ⟨r, i' + 1, l, k' + 1⟩ m ms false (.value :: t :: .key :: ts)) := by
  have hstale : (held ⟨':' :: r, i', l, k'⟩ m ms ⟨ts.length, i, l, k, q⟩ (t :: ts)).forgetStale =
      .ok (held ⟨':' :: r, i', l, k'⟩ m ms ⟨ts.length, i, l, k, q⟩ (t :: ts)) :=
    forgetStale_held rfl hi
  have hbreak : isBreak ':' = false := rfl
  rw [step_of_kept skip_held hstale hm, token_held hr]
  by_cases hopen : m ≤ k <;>
    simp [held, idle, inFlow, value, candidate, setCandidate, openBlock, hopen, insert, indicator,
      drop, Cursor.drop, Cursor.next, hbreak, push]

/-- The value is read with the line end and the indentation behind it. -/
theorem step_value (hw : IsBare w) (hr : StartsLine r) {n k : Nat} (hn : n < m) (hm : m ≤ k + 2)
    (i l : Nat) :
    (idle ⟨' ' :: (w ++ '\n' :: (List.replicate n ' ' ++ r)), i, l, k⟩ m ms false ts).step =
      .ok (idle ⟨r, i + 1 + w.length + 1 + n, l + 1, n⟩ m ms true
        (.scalar true (String.ofList w) :: ts)) := by
  let text := w ++ '\n' :: (List.replicate n ' ' ++ r)
  have hpassable : ∀ c ∈ w, isBreak c = false ∧ c ≠ '\uFEFF' :=
    fun c hc => passable_of_isBareChar (hw.2 c hc)
  have hskip : (idle ⟨' ' :: text, i, l, k⟩ m ms false ts).skip =
      idle ⟨text, i + 1, l, k + 1⟩ m ms false ts := by
    have hgap : gap false (' ' :: text) = (false, text) :=
      (gap_spaces 1 _).trans (gap_of_startsLine (hw.startsLine _))
    have hspace : isBreak ' ' = false ∧ ' ' ≠ '\uFEFF' := by decide
    have hdrop := Cursor.dropTo_append (List.forall_mem_singleton.mpr hspace) text i l k
    rw [skip_of_gap (by simp [idle]) hgap rfl]
    simpa [idle, dropTo] using hdrop
  have hdrop := Cursor.dropTo_line hpassable r (i + 1) l (k + 1) n
  have hremember : (idle ⟨text, i + 1, l, k + 1⟩ m ms false ts).remember =
      .ok (idle ⟨text, i + 1, l, k + 1⟩ m ms false ts) := rfl
  rw [step_of_kept hskip forgetStale_idle hm, token_of_isBare hw, plainScalar, hremember]
  simp only [bind, Except.bind, pure, Except.pure]
  simp [text, idle, inFlow, plain_value hw hn hr, dropTo, hdrop, push]

/-- The end of the text closes a block and the block around it. -/
theorem step_end (hm : 1 < m) (i l : Nat) :
    (idle ⟨[], i, l, 0⟩ m [1, 0] true ts).step =
      .ok (idle ⟨[], i, l, 0⟩ 0 [] false (.textEnd :: .blockEnd :: .blockEnd :: ts)) := by
  have hskip : (idle ⟨[], i, l, 0⟩ m [1, 0] true ts).skip = idle ⟨[], i, l, 0⟩ m [1, 0] true ts :=
    skip_idle (by simp [StartsLine])
  rw [step, hskip, forgetStale_idle]
  simp [idle, unwind, unwindFrom, inFlow, hm, token, closeAll, forget, candidate, setCandidate, push,
    bind, Except.bind, pure, Except.pure]

/-! ## 4. Runs -/

/-- `n` steps lead from a state to another, none of them the last of a text. -/
def Steps : Nat → Scan → Scan → Prop
  | 0, s, s' => s = s'
  | n + 1, s, s' => ∃ u, s.step = .ok u ∧ u.tokens.head? ≠ some .textEnd ∧ Steps n u s'

theorem Steps.trans {n n' : Nat} {s s' s'' : Scan} (h : Steps n s s') (h' : Steps n' s' s'') :
    Steps (n + n') s s'' := by
  induction n generalizing s with
  | zero =>
    rw [Nat.zero_add]
    exact h.symm ▸ h'
  | succ n ih =>
    obtain ⟨u, hstep, hon, hrest⟩ := h
    rw [Nat.add_right_comm]
    exact ⟨u, hstep, hon, ih hrest⟩

theorem run_of_steps {n : Nat} {s s' : Scan} (h : Steps n s s') (fuel : Nat) :
    run (n + fuel) s = run fuel s' := by
  induction n generalizing s with
  | zero => rw [Nat.zero_add, show s = s' from h]
  | succ n ih =>
    obtain ⟨u, hstep, hon, hrest⟩ := h
    rw [Nat.add_right_comm, run, hstep]
    simp only
    split
    · rename_i ts hts
      rw [hts] at hon
      exact absurd rfl hon
    · exact ih hrest

theorem Steps.congr {n : Nat} {s s' u : Scan} (hskip : s.skip = s'.skip) (hn : n ≠ 0)
    (h : Steps n s u) : Steps n s' u := by
  cases n with
  | zero => exact absurd rfl hn
  | succ n =>
    obtain ⟨v, hstep, hon, hrest⟩ := h
    exact ⟨v, step_congr hskip ▸ hstep, hon, hrest⟩

theorem run_of_end {s s' : Scan} {ts : List Token} (h : s.step = .ok s')
    (hend : s'.tokens = .textEnd :: ts) (fuel : Nat) : run (fuel + 1) s = .textEnd :: ts := by
  rw [run, h]
  simp only [hend]

/-! ## 5. Blocks -/

/-- The column at which lines begin; behind the last line the text is over. -/
def indentOf (n : Nat) (entries : List (List Char × List Char)) : Nat :=
  if entries.isEmpty then 0 else n

/-- Keys and values line by line, from the indentation of the first line on. -/
def linesText (n : Nat) : List (List Char × List Char) → List Char
  | [] => []
  | (key, word) :: rest =>
    key ++ ':' :: ' ' :: (word ++ '\n' ::
      (List.replicate (indentOf n rest) ' ' ++ linesText n rest))

/-- The tokens of a line. -/
def lineTokens (e : List Char × List Char) : List Token :=
  [.key, .scalar true (String.ofList e.1), .value, .scalar true (String.ofList e.2)]

/-- Keys and values that are bare words, the keys short enough to be keys. -/
def AreBare (entries : List (List Char × List Char)) : Prop :=
  ∀ e ∈ entries, IsBare e.1 ∧ e.1.length ≤ 1024 ∧ IsBare e.2

theorem indentOf_le (n : Nat) (entries : List (List Char × List Char)) : indentOf n entries ≤ n := by
  unfold indentOf
  split
  · exact Nat.zero_le n
  · exact Nat.le_refl n

theorem startsLine_linesText {entries : List (List Char × List Char)} (h : AreBare entries) (n : Nat) :
    StartsLine (linesText n entries) := by
  cases entries with
  | nil => simp [linesText, StartsLine]
  | cons e rest => exact (h e List.mem_cons_self).1.startsLine _

theorem length_linesText (n : Nat) (entries : List (List Char × List Char)) :
    3 * entries.length ≤ (linesText n entries).length := by
  induction entries with
  | nil => exact Nat.zero_le _
  | cons e rest ih =>
    simp only [linesText, List.length_append, List.length_cons]
    omega

/-- A key with its colon opens a block if it lies at the margin or to the right of it. -/
theorem steps_key (hw : IsBare w) (hlength : w.length ≤ 1024) (hr : startsGap r = true) {k : Nat}
    (hm : m ≤ k + 1) (ms : List Nat) (ts : List Token) (i l : Nat) :
    Steps 2 (idle ⟨w ++ ':' :: r, i, l, k⟩ m ms true ts)
      (if m ≤ k then
          idle ⟨r, i + w.length + 1, l, k + w.length + 1⟩ (k + 1) (m :: ms) false
            (.value :: .scalar true (String.ofList w) :: .key :: .blockMappingStart :: ts)
        else
          idle ⟨r, i + w.length + 1, l, k + w.length + 1⟩ m ms false
            (.value :: .scalar true (String.ofList w) :: .key :: ts)) := by
  refine ⟨_, step_key hw hr hm i l, by simp [held], _, step_colon hr (by omega) (by omega), ?_, rfl⟩
  split <;> simp [idle]

theorem steps_value (hw : IsBare w) (hr : StartsLine r) {n k : Nat} (hn : n < m) (hm : m ≤ k + 2)
    (i l : Nat) :
    Steps 1 (idle ⟨' ' :: (w ++ '\n' :: (List.replicate n ' ' ++ r)), i, l, k⟩ m ms false ts)
      (idle ⟨r, i + 1 + w.length + 1 + n, l + 1, n⟩ m ms true
        (.scalar true (String.ofList w) :: ts)) :=
  ⟨_, step_value hw hr hn hm i l, by simp [idle], rfl⟩

/-- A line opens a block in the same way. -/
theorem steps_line {key word : List Char} (hkey : IsBare key) (hlength : key.length ≤ 1024)
    (hword : IsBare word) (hr : StartsLine r) {n k : Nat} (hn : n ≤ k) (hm : m ≤ k + 1)
    (ms : List Nat) (ts : List Token) (i l : Nat) :
    ∃ i', Steps 3
      (idle ⟨key ++ ':' :: ' ' :: (word ++ '\n' :: (List.replicate n ' ' ++ r)), i, l, k⟩ m ms true ts)
      (if m ≤ k then
          idle ⟨r, i', l + 1, n⟩ (k + 1) (m :: ms) true
            ((lineTokens (key, word)).reverse ++ .blockMappingStart :: ts)
        else idle ⟨r, i', l + 1, n⟩ (k + 1) ms true ((lineTokens (key, word)).reverse ++ ts)) := by
  have hstart := steps_key hkey hlength (r := ' ' :: (word ++ '\n' :: (List.replicate n ' ' ++ r)))
    rfl hm ms ts i l
  refine ⟨i + key.length + 1 + 1 + word.length + 1 + n, ?_⟩
  by_cases hopen : m ≤ k
  · rw [if_pos hopen] at hstart ⊢
    exact hstart.trans (steps_value hword hr (by omega) (by omega) _ l)
  · obtain rfl : m = k + 1 := by omega
    rw [if_neg hopen] at hstart ⊢
    exact hstart.trans (steps_value hword hr (by omega) (by omega) _ l)

/-- Lines of a block that is open. -/
theorem steps_lines {n : Nat} {entries : List (List Char × List Char)} (h : AreBare entries)
    (ms : List Nat) (ts : List Token) (i l : Nat) :
    ∃ i' l', Steps (3 * entries.length)
      (idle ⟨linesText n entries, i, l, indentOf n entries⟩ (n + 1) ms true ts)
      (idle ⟨[], i', l', 0⟩ (n + 1) ms true ((entries.flatMap lineTokens).reverse ++ ts)) := by
  induction entries generalizing i l ts with
  | nil => exact ⟨i, l, rfl⟩
  | cons e rest ih =>
    obtain ⟨⟨hkey, hlength, hword⟩, hrest⟩ := List.forall_mem_cons.mp h
    obtain ⟨i', hline⟩ := steps_line hkey hlength hword (startsLine_linesText hrest n)
      (indentOf_le n rest) (Nat.le_refl (n + 1)) ms ts i l
    obtain ⟨i'', l'', hlines⟩ := ih hrest ((lineTokens e).reverse ++ ts) i' (l + 1)
    rw [if_neg (by omega)] at hline
    refine ⟨i'', l'', ?_⟩
    have hsteps := hline.trans hlines
    rw [List.length_cons, Nat.mul_succ, Nat.add_comm]
    simpa [indentOf, linesText] using hsteps

/-- A block in a block. -/
theorem steps_block {n : Nat} {entries : List (List Char × List Char)} (h : AreBare entries)
    (hne : entries ≠ []) (hm : m ≤ n) (ms : List Nat) (ts : List Token) (i l : Nat) :
    ∃ i' l', Steps (3 * entries.length)
      (idle ⟨linesText n entries, i, l, n⟩ m ms true ts)
      (idle ⟨[], i', l', 0⟩ (n + 1) (m :: ms) true
        ((entries.flatMap lineTokens).reverse ++ .blockMappingStart :: ts)) := by
  obtain ⟨e, rest, rfl⟩ := List.exists_cons_of_ne_nil hne
  obtain ⟨⟨hkey, hlength, hword⟩, hrest⟩ := List.forall_mem_cons.mp h
  obtain ⟨i', hline⟩ := steps_line hkey hlength hword (startsLine_linesText hrest n)
    (indentOf_le n rest) (Nat.le_succ_of_le hm) ms ts i l
  obtain ⟨i'', l'', hlines⟩ := steps_lines hrest (m :: ms)
    ((lineTokens e).reverse ++ .blockMappingStart :: ts) i' (l + 1)
  rw [if_pos hm] at hline
  refine ⟨i'', l'', ?_⟩
  have hsteps := hline.trans hlines
  rw [List.length_cons, Nat.mul_succ, Nat.add_comm]
  simpa [linesText] using hsteps

end Scan

/-- The tokens of a section: a name, and a block of lines below it. -/
theorem tokens_section {name : List Char} {n : Nat} {entries : List (List Char × List Char)}
    (hname : IsBare name) (hlength : name.length ≤ 1024) (h : Scan.AreBare entries)
    (hne : entries ≠ []) (hn : 0 < n) :
    tokens (name ++ ':' :: '\n' :: (List.replicate n ' ' ++ Scan.linesText n entries)) =
      .blockMappingStart :: .key :: .scalar true (String.ofList name) :: .value ::
        .blockMappingStart :: (entries.flatMap Scan.lineTokens ++ [.blockEnd, .blockEnd, .textEnd]) := by
  let text := name ++ ':' :: '\n' :: (List.replicate n ' ' ++ Scan.linesText n entries)
  have hstart := Scan.steps_key hname hlength
    (r := '\n' :: (List.replicate n ' ' ++ Scan.linesText n entries)) rfl (Nat.zero_le (0 + 1)) [] []
    0 0
  have hline := Scan.startsLine_linesText h n
  have hcount : 3 * entries.length ≠ 0 := Nat.mul_ne_zero (by decide) (by simpa using hne)
  obtain ⟨i, l, hblock⟩ := Scan.steps_block h hne hn [0]
    [.value, .scalar true (String.ofList name), .key, .blockMappingStart]
    (0 + name.length + 1 + 1 + n) 1
  -- the line end behind the name is passed before the first line's key
  have hsteps := hstart.trans (hblock.congr
    ((Scan.skip_idle hline).trans (Scan.skip_line hline _ 0 _ n).symm) hcount)
  obtain ⟨fuel, hfuel⟩ : ∃ fuel, text.length + 1 = 2 + 3 * entries.length + (fuel + 1) := by
    have hlines := Scan.length_linesText n entries
    have htext : text.length = name.length + (n + (Scan.linesText n entries).length + 2) := by
      simp [text]
    exact ⟨text.length - 2 - 3 * entries.length, by omega⟩
  have hrun : Scan.run (text.length + 1) (Scan.idle ⟨text, 0, 0, 0⟩ 0 [] true []) =
      .textEnd :: .blockEnd :: .blockEnd :: ((entries.flatMap Scan.lineTokens).reverse ++
        [.blockMappingStart, .value, .scalar true (String.ofList name), .key, .blockMappingStart]) := by
    rw [hfuel, Scan.run_of_steps hsteps]
    exact Scan.run_of_end (Scan.step_end (by omega) i l) rfl fuel
  exact (congrArg List.reverse hrun).trans (by simp)

end Yaml

end Recall
