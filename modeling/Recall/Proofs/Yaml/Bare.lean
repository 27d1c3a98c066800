/-
Recall.Proofs.Yaml.Bare — words without quotes.

A bare word is made of small letters, digits and underscores. Nothing in it has a meaning of its own
in a YAML text, so it is passed as it stands: as a key it ends at the colon (`plain_key`), and as the
value at the end of a line it ends there, and the line end with the spaces that begin the next line is
passed with it (`plain_value`). Where a cursor is then is known from what was passed
(`Cursor.dropTo_append`, `Cursor.dropTo_line`).
-/
import Recall.Proofs.Text.Digit
import Recall.Yaml.Token

namespace Recall

namespace Yaml

/-! ## 1. Characters -/

/-- Characters of bare words. -/
def isBareChar (c : Char) : Bool :=
  ('a' ≤ c && c ≤ 'z') || Chars.isAsciiDigit c || c == '_'

/-- A word that is written without quotes. -/
def IsBare (w : List Char) : Prop :=
  w ≠ [] ∧ ∀ c ∈ w, isBareChar c = true

-- Characters are finitely many, so the instance for the second part is named.
instance (w : List Char) : Decidable (IsBare w) :=
  have : Decidable (∀ c ∈ w, isBareChar c = true) := List.decidableBAll _ w
  inferInstanceAs (Decidable (_ ∧ _))

variable {c d : Char} {w r : List Char}

theorem ne_of_isBareChar (hc : isBareChar c = true) (hd : isBareChar d = false) : c ≠ d := by
  rintro rfl
  rw [hc] at hd
  cases hd

theorem toNat_of_isBareChar (h : isBareChar c = true) :
    (97 ≤ c.toNat ∧ c.toNat ≤ 122) ∨ (48 ≤ c.toNat ∧ c.toNat ≤ 57) ∨ c.toNat = 95 := by
  rw [isBareChar, Bool.or_eq_true, Bool.or_eq_true, Chars.isAsciiDigit_iff, Bool.and_eq_true,
    decide_eq_true_eq, decide_eq_true_eq, Char.le_def, Char.le_def, UInt32.le_iff_toNat_le,
    UInt32.le_iff_toNat_le, beq_iff_eq] at h
  rcases h with (h | h) | rfl
  · exact Or.inl h
  · exact Or.inr (Or.inl h)
  · exact Or.inr (Or.inr rfl)

theorem isPrintable_of_isBareChar (h : isBareChar c = true) : isPrintable c = true := by
  have hrange := toNat_of_isBareChar h
  have hprint : 0x20 ≤ c.toNat ∧ c.toNat ≤ 0x7E := by omega
  simp [isPrintable, hprint]

theorem isBareChar_of_isAsciiDigit (h : Chars.isAsciiDigit c = true) : isBareChar c = true := by
  simp [isBareChar, h]

theorem isBreak_of_isBareChar (h : isBareChar c = true) : isBreak c = false := by
  simp [isBreak, ne_of_isBareChar h (d := '\n') (by decide),
    ne_of_isBareChar h (d := '\x85') (by decide), ne_of_isBareChar h (d := '\u2028') (by decide),
    ne_of_isBareChar h (d := '\u2029') (by decide)]

theorem isGap_of_isBareChar (h : isBareChar c = true) : isGap c = false := by
  simp [isGap, isWhite, isBreak_of_isBareChar h, ne_of_isBareChar h (d := ' ') (by decide),
    ne_of_isBareChar h (d := '\t') (by decide)]

theorem IsBare.exists_eq_cons (h : IsBare w) : ∃ c t, w = c :: t ∧ isBareChar c = true := by
  obtain ⟨c, t, rfl⟩ := List.exists_cons_of_ne_nil h.1
  exact ⟨c, t, rfl, h.2 c List.mem_cons_self⟩

theorem IsBare.not_mem (h : IsBare w) (hd : isBareChar d = false) : d ∉ w := by
  intro hmem
  rw [h.2 d hmem] at hd
  cases hd

/-! ## 2. Passing characters -/

namespace Cursor

/-- Characters of a line are passed one column each. -/
theorem drop_append (h : ∀ c ∈ w, isBreak c = false ∧ c ≠ '\uFEFF') (r : List Char)
    (i l k : Nat) :
    drop w.length ⟨w ++ r, i, l, k⟩ = ⟨r, i + w.length, l, k + w.length⟩ := by
  induction w generalizing i k with
  | nil => rfl
  | cons c t ih =>
    rw [List.forall_mem_cons] at h
    have hnext : next ⟨c :: t ++ r, i, l, k⟩ = ⟨t ++ r, i + 1, l, k + 1⟩ := by
      simp [next, h.1.1, h.1.2]
    rw [List.length_cons, drop, hnext, ih h.2]
    congr 1 <;> omega

theorem drop_add (m n : Nat) (c : Cursor) : drop (m + n) c = drop n (drop m c) := by
  induction m generalizing c with
  | zero => rw [Nat.zero_add]; rfl
  | succ m ih => rw [Nat.add_right_comm, drop, ih, drop]

theorem dropTo_eq (w r : List Char) (i l k : Nat) :
    dropTo ⟨w ++ r, i, l, k⟩ r = drop w.length ⟨w ++ r, i, l, k⟩ := by
  simp [dropTo]

theorem dropTo_append (h : ∀ c ∈ w, isBreak c = false ∧ c ≠ '\uFEFF') (r : List Char)
    (i l k : Nat) : dropTo ⟨w ++ r, i, l, k⟩ r = ⟨r, i + w.length, l, k + w.length⟩ := by
  rw [dropTo_eq, drop_append h]

theorem dropTo_self (r : List Char) (i l k : Nat) : dropTo ⟨r, i, l, k⟩ r = ⟨r, i, l, k⟩ := by
  simp [dropTo, drop]

/-- Behind a line end and `n` spaces the column is `n`. -/
theorem dropTo_line (h : ∀ c ∈ w, isBreak c = false ∧ c ≠ '\uFEFF') (r : List Char)
    (i l k n : Nat) : dropTo ⟨w ++ '\n' :: (List.replicate n ' ' ++ r), i, l, k⟩ r =
      ⟨r, i + w.length + 1 + n, l + 1, n⟩ := by
  have hspaces : ∀ c ∈ List.replicate n ' ', isBreak c = false ∧ c ≠ '\uFEFF' := by
    intro c hc
    rw [(List.mem_replicate.mp hc).2]
    decide
  have hsplit : w ++ '\n' :: (List.replicate n ' ' ++ r) =
      (w ++ '\n' :: List.replicate n ' ') ++ r := by simp
  have hlength : (w ++ '\n' :: List.replicate n ' ').length = w.length + (1 + n) := by
    simp [Nat.add_comm]
  have hbreak : drop 1 ⟨'\n' :: (List.replicate n ' ' ++ r), i + w.length, l, k + w.length⟩ =
      ⟨List.replicate n ' ' ++ r, i + w.length + 1, l + 1, 0⟩ := rfl
  have hrest := drop_append hspaces r (i + w.length + 1) (l + 1) 0
  rw [List.length_replicate] at hrest
  rw [hsplit, dropTo_eq, hlength, ← hsplit, drop_add, drop_append h, drop_add, hbreak, hrest,
    Nat.zero_add]

end Cursor

theorem passable_of_isBareChar (h : isBareChar c = true) : isBreak c = false ∧ c ≠ '\uFEFF' :=
  ⟨isBreak_of_isBareChar h, ne_of_isBareChar h (by decide)⟩

/-! ## 3. Gaps -/

/-- What may stand behind a line and its indentation: nothing, or a bare word. -/
def StartsLine (r : List Char) : Prop :=
  ∀ c ∈ r.head?, isBareChar c = true

theorem IsBare.startsLine (h : IsBare w) (r : List Char) : StartsLine (w ++ r) := by
  obtain ⟨c, t, rfl, hc⟩ := h.exists_eq_cons
  simpa [StartsLine] using hc

theorem gap_of_startsLine (h : StartsLine r) : Scan.gap false r = (false, r) := by
  cases r with
  | nil => rfl
  | cons c t =>
    have hc := h c rfl
    simp [Scan.gap, isBreak_of_isBareChar hc, ne_of_isBareChar hc (d := '#') (by decide),
      ne_of_isBareChar hc (d := ' ') (by decide)]

theorem gap_spaces (n : Nat) (r : List Char) :
    Scan.gap false (List.replicate n ' ' ++ r) = Scan.gap false r := by
  induction n with
  | zero => rfl
  | succ n ih =>
    rw [List.replicate_succ, List.cons_append, Scan.gap, if_neg (by decide), if_neg (by decide),
      if_pos (by decide), ih]

theorem gap_line (n : Nat) (h : StartsLine r) :
    Scan.gap false ('\n' :: (List.replicate n ' ' ++ r)) = (true, r) := by
  rw [Scan.gap, if_pos (by decide), gap_spaces, gap_of_startsLine h]

/-! ## 4. Plain scalars -/

/-- A word ends where something else than a bare word could go on. -/
theorem plainPiece_append (hw : ∀ c ∈ w, isBareChar c = true) (hr : plainEnds false r = true) :
    plainPiece false (w ++ r) = (w, r) := by
  induction w with
  | nil => cases r <;> simp [plainPiece, hr]
  | cons c t ih =>
    rw [List.forall_mem_cons] at hw
    have hon : plainEnds false (c :: (t ++ r)) = false := by
      simp [plainEnds, isGap_of_isBareChar hw.1, ne_of_isBareChar hw.1 (d := ':') (by decide)]
    simp [plainPiece, hon, ih hw.2]

theorem startsHash_append (h : IsBare w) (r : List Char) : startsWith ['#'] (w ++ r) = false := by
  obtain ⟨c, t, rfl, hc⟩ := h.exists_eq_cons
  simp [startsWith, ne_of_isBareChar hc (d := '#') (by decide)]

/-- A bare word in front of a colon and a gap. -/
theorem plain_key (hw : IsBare w) (hr : startsGap r = true) (margin : Nat) :
    plain false margin (w ++ ':' :: r) = ⟨w, ':' :: r, false⟩ := by
  have hpiece : plainPiece false (w ++ ':' :: r) = (w, ':' :: r) :=
    plainPiece_append hw.2 (by simp [plainEnds, hr])
  obtain ⟨c, t, rfl, -⟩ := hw.exists_eq_cons
  rw [plain, plainFrom, if_neg (by rw [startsHash_append hw]; decide), hpiece]
  simp [isBreak]

theorem startsMark_of_startsLine (n : Nat) (h : StartsLine r) :
    startsMark (List.replicate n ' ' ++ r) = false := by
  cases n with
  | succ n => rfl
  | zero =>
    cases r with
    | nil => rfl
    | cons c t =>
      have hc := h c rfl
      have hhyphen := ne_of_isBareChar hc (d := '-') (by decide)
      have hpoint := ne_of_isBareChar hc (d := '.') (by decide)
      rw [List.replicate_zero, List.nil_append, startsMark, startsDocument, endsDocument]
      · rfl
      · intro r heq
        exact absurd (List.cons.inj heq).1 hpoint
      · intro r heq
        exact absurd (List.cons.inj heq).1 hhyphen

theorem foldFrom_spaces (n column : Nat) (h : StartsLine r) :
    foldFrom column (List.replicate n ' ' ++ r) = ⟨[], column + n, r, false⟩ := by
  induction n generalizing column with
  | zero =>
    cases r with
    | nil => rfl
    | cons c t =>
      have hc := h c rfl
      simp [foldFrom, isBreak_of_isBareChar hc, ne_of_isBareChar hc (d := ' ') (by decide)]
  | succ n ih =>
    rw [List.replicate_succ, List.cons_append, foldFrom, if_pos rfl, ih]
    congr 1
    omega

/-- A bare word at the end of a line, if the next line begins to the left of the margin. -/
theorem plain_value (hw : IsBare w) {n margin : Nat} (hn : n < margin) (hr : StartsLine r) :
    plain false margin (w ++ '\n' :: (List.replicate n ' ' ++ r)) = ⟨w, r, true⟩ := by
  have hpiece : plainPiece false (w ++ '\n' :: (List.replicate n ' ' ++ r)) =
      (w, '\n' :: (List.replicate n ' ' ++ r)) := plainPiece_append hw.2 rfl
  have hmark := startsMark_of_startsLine n hr
  have hfold := foldFrom_spaces n 0 hr
  obtain ⟨c, t, rfl, -⟩ := hw.exists_eq_cons
  rw [plain, plainFrom, if_neg (by rw [startsHash_append hw]; decide), hpiece]
  simp [isBreak, hmark, hfold, hn]

end Yaml

end Recall
