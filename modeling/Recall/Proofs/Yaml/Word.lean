/-
Recall.Proofs.Yaml.Word — values that are written as bare words.

A text is written as it stands when it is a bare word that has no other form (`textAt_eq`). Truth
values are words, and so are positive integers: their digits do not begin with a zero, so they have
the form of a decimal integer and no other (`IsDecimal.plainTag`), and they denote the number when
there are not too many of them (`integer?_digits`). For these values the written word is read as the
value (`isWord_of_isBareValue`).
-/
import Recall.Proofs.Decode.TimeOfDay
import Recall.Proofs.Json.Writer
import Recall.Proofs.Text.Occurs
import Recall.Proofs.Yaml.Section
import Recall.Yaml.Writer

namespace Recall

/-! ## 1. Numbers -/

namespace Chars

/-- A positive number is written without a zero in front. -/
theorem head?_digits_ne_zero {n : Nat} (h : 0 < n) : ∀ c ∈ (digits n).head?, c ≠ '0' := by
  induction n using Nat.strongRecOn with
  | ind n ih =>
    rw [digits, Nat.toDigits_eq_if (by decide)]
    split
    · rename_i hlt
      have hdigit : ∀ k : Fin 10, 0 < k.val → Nat.digitChar k ≠ '0' := by decide
      simpa using hdigit ⟨n, hlt⟩ h
    · rename_i hge
      have hfront := ih (n / 10) (Nat.div_lt_self h (by decide)) (Nat.div_pos (by omega) (by decide))
      rw [List.head?_append_of_ne_nil _ Nat.toDigits_ne_nil]
      exact hfront

theorem isNumberBlank_of_isAsciiDigit {c : Char} (h : isAsciiDigit c = true) :
    isNumberBlank c = false := by
  have hrange := isAsciiDigit_iff.mp h
  simp only [isNumberBlank, isBlank_of_isAsciiDigit h, Bool.and_false, Bool.or_false,
    Bool.or_eq_false_iff, beq_eq_false_iff_ne, Bool.and_eq_false_iff, decide_eq_false_iff_not]
  refine ⟨ne_of_isAsciiDigit h (by decide), Or.inr fun hle => ?_⟩
  rw [Char.le_def, UInt32.le_iff_toNat_le] at hle
  exact absurd hrange.1 (Nat.not_le.mpr (Nat.lt_of_le_of_lt hle (by decide)))

/-- The digits of a number are read as the number, if there are not too many of them. -/
theorem integer?_digits {n : Nat} (h : (digits n).length ≤ maxDigits) :
    integer? (digits n) = some (n : Int) := by
  have hascii : ∀ c ∈ digits n, isAsciiDigit c = true := fun c hc => Json.isAsciiDigit_of_mem_digits hc
  have hdigit : ∀ c ∈ digits n, digitValue? c = some (c.toNat - '0'.toNat) := fun c hc =>
    digitValue?_of_isAsciiDigit (hascii c hc)
  have hstrip : strip isNumberBlank (digits n) = digits n := by
    refine strip_eq_self_iff.mpr ⟨fun c hc => ?_, fun c hc => ?_⟩
    · exact isNumberBlank_of_isAsciiDigit (hascii c (List.mem_of_mem_head? hc))
    · exact isNumberBlank_of_isAsciiDigit (hascii c (List.mem_of_mem_getLast? hc))
  have hnatural : natural? (digits n) = some n := by
    have hplain : '_' ∉ digits n := fun hc => absurd (hascii _ hc) (by decide)
    have hne : digits n ≠ [] := Nat.toDigits_ne_nil
    refine (natural?_eq_some_iff hne hplain).mpr ⟨⟨h, fun c hc => ?_⟩, ?_⟩
    · rw [hdigit c hc]
      rfl
    · rw [List.filterMap_congr hdigit, List.filterMap_eq_map']
      exact Json.natOf_digits n
  obtain ⟨c, t, hct, hc⟩ := Json.exists_digits_eq_cons n
  rw [integer?, hstrip]
  split
  · rename_i r heq
    rw [heq] at hascii
    exact absurd (hascii '-' List.mem_cons_self) (by decide)
  · rename_i r heq
    rw [heq] at hascii
    exact absurd (hascii '+' List.mem_cons_self) (by decide)
  · rw [hnatural]
    rfl

end Chars

namespace Yaml

/-! ## 2. Positive integers -/

/-- Digits of which the first is not zero. -/
structure IsDecimal (cs : List Char) : Prop where
  ne_nil : cs ≠ []
  digit : ∀ c ∈ cs, Chars.isAsciiDigit c = true
  head : ∀ c ∈ cs.head?, c ≠ '0'

theorem isDecimal_digits {n : Nat} (h : 0 < n) : IsDecimal (Chars.digits n) :=
  ⟨Nat.toDigits_ne_nil, fun _ hc => Json.isAsciiDigit_of_mem_digits hc, Chars.head?_digits_ne_zero h⟩

theorem IsDecimal.exists_eq_cons {cs : List Char} (h : IsDecimal cs) :
    ∃ c t, cs = c :: t ∧ Chars.isAsciiDigit c = true ∧ c ≠ '0' := by
  obtain ⟨c, t, rfl⟩ := List.exists_cons_of_ne_nil h.ne_nil
  exact ⟨c, t, rfl, h.digit c List.mem_cons_self, h.head c rfl⟩

theorem IsDecimal.not_mem {cs : List Char} {d : Char} (h : IsDecimal cs)
    (hd : Chars.isAsciiDigit d = false) : d ∉ cs := by
  intro hmem
  rw [h.digit d hmem] at hd
  cases hd

theorem IsDecimal.isBare {cs : List Char} (h : IsDecimal cs) : IsBare cs :=
  ⟨h.ne_nil, fun c hc => isBareChar_of_isAsciiDigit (h.digit c hc)⟩

theorem IsDecimal.dropSign {cs : List Char} (h : IsDecimal cs) : dropSign cs = cs := by
  rw [Yaml.dropSign.eq_def]
  split
  · exact absurd List.mem_cons_self (h.not_mem (d := '-') (by decide))
  · exact absurd List.mem_cons_self (h.not_mem (d := '+') (by decide))
  · rfl

theorem IsDecimal.isBool {cs : List Char} (h : IsDecimal cs) : isBool cs = false := by
  obtain ⟨c, t, rfl, hc, -⟩ := h.exists_eq_cons
  have hlower : c.toLower = c :=
    Chars.forall_isAsciiDigit (P := fun c => c.toLower = c) (by decide) hc
  have htruth : truth? (c :: t.map Char.toLower) = none := by
    have hne : ∀ d, Chars.isAsciiDigit d = false → c ≠ d := fun d => Chars.ne_of_isAsciiDigit hc
    rw [truth?.eq_def]
    split
    all_goals first | rfl | exact absurd (List.cons.inj ‹_›).1 (hne _ (by decide))
  rw [Yaml.isBool, List.map_cons, hlower, htruth, Option.isSome_none, Bool.and_false]

theorem IsDecimal.isFloat {cs : List Char} (h : IsDecimal cs) : isFloat cs = false := by
  have hpoint : cs.dropWhile (· != '.') = [] :=
    List.dropWhile_eq_nil_iff.mpr fun c hc =>
      bne_iff_ne.mpr (Chars.ne_of_isAsciiDigit (h.digit c hc) (by decide))
  rw [Yaml.isFloat, h.dropSign]
  split
  · exact absurd List.mem_cons_self (h.not_mem (d := '.') (by decide))
  · rw [hpoint]

theorem IsDecimal.isInt {cs : List Char} (h : IsDecimal cs) : isInt cs = true := by
  have hparts : colonParts cs = [cs] := Chars.cut_of_forall_not fun c hc =>
    beq_false_of_ne (Chars.ne_of_isAsciiDigit (h.digit c hc) (by decide))
  have hnumeral : isNumeral isPositive cs = true := by
    obtain ⟨c, t, rfl, hc, hzero⟩ := h.exists_eq_cons
    have hpositive : isPositive c = true := Chars.forall_isAsciiDigit
      (P := fun c => c ≠ '0' → isPositive c = true) (by decide) hc hzero
    have hdecimal : t.all isDecimal = true := List.all_eq_true.mpr fun d hd => by
      rw [isDecimal, h.digit d (List.mem_cons_of_mem c hd), Bool.true_or]
    rw [isNumeral, hpositive, hdecimal, Bool.and_self]
  rw [Yaml.isInt, h.dropSign]
  split
  · exact absurd rfl (h.head '0' rfl)
  · exact absurd rfl (h.head '0' rfl)
  · exact absurd rfl (h.head '0' rfl)
  · rw [hparts]
    simp [hnumeral]

theorem IsDecimal.plainTag {cs : List Char} (h : IsDecimal cs) :
    plainTag (String.ofList cs) = Tag.int := by
  simp [Yaml.plainTag, h.isBool, h.isFloat, h.isInt]

theorem IsDecimal.intValue {cs : List Char} (h : IsDecimal cs) : intValue cs = decimal cs := by
  have hfilter : cs.filter (· != '_') = cs := List.filter_eq_self.mpr fun c hc =>
    bne_iff_ne.mpr (Chars.ne_of_isAsciiDigit (h.digit c hc) (by decide))
  have hcolon : cs.contains ':' = false := by
    simpa using h.not_mem (d := ':') (by decide)
  have hmagnitude : magnitude cs = decimal cs := by
    rw [magnitude.eq_def]
    split
    · exact absurd rfl h.ne_nil
    · exact absurd rfl (h.head '0' rfl)
    · exact absurd rfl (h.head '0' rfl)
    · exact absurd rfl (h.head '0' rfl)
    · exact absurd rfl (h.head '0' rfl)
    · rw [hcolon]
      rfl
  rw [Yaml.intValue, hfilter]
  split
  · exact absurd rfl h.ne_nil
  · exact absurd List.mem_cons_self (h.not_mem (d := '-') (by decide))
  · exact absurd List.mem_cons_self (h.not_mem (d := '+') (by decide))
  · exact hmagnitude

/-! ## 3. Texts -/

section Texts

variable {w : List Char}

theorem hasMarks_of_isBare (h : ∀ c ∈ w, isBareChar c = true) : hasMarks false w = false := by
  induction w with
  | nil => rfl
  | cons c r ih =>
    rw [List.forall_mem_cons] at h
    have hne : ∀ d, isBareChar d = false → ¬ c = d := fun d => ne_of_isBareChar h.1
    have hspace : (c == ' ') = false := beq_false_of_ne (hne ' ' (by decide))
    simp (disch := decide) [hasMarks, hne, hspace, ih h.2]

/-- What has a character of another kind neither begins a bare word nor occurs in it. -/
theorem isPrefixOf_of_isBare (h : IsBare w) {needle : List Char} {d : Char} (hd : d ∈ needle)
    (hbare : isBareChar d = false) : needle.isPrefixOf w = false := by
  rw [Bool.eq_false_iff, ne_eq, List.isPrefixOf_iff_prefix]
  exact fun hbegins => h.not_mem hbare (hbegins.subset hd)

theorem occursIn_of_isBare (h : IsBare w) {needle : List Char} {d : Char} (hd : d ∈ needle)
    (hbare : isBareChar d = false) : Chars.occursIn needle w = false := by
  rw [Bool.eq_false_iff, ne_eq, Chars.occursIn_iff]
  exact fun hoccurs => h.not_mem hbare (hoccurs.subset hd)

theorem hasIndicators_of_isBare (h : IsBare w) : hasIndicators w = false := by
  have hdashes : ['-', '-', '-'].isPrefixOf w = false :=
    isPrefixOf_of_isBare h (d := '-') (by decide) (by decide)
  have hpoints : ['.', '.', '.'].isPrefixOf w = false :=
    isPrefixOf_of_isBare h (d := '.') (by decide) (by decide)
  obtain ⟨c, t, rfl, hc⟩ := h.exists_eq_cons
  have hne : ∀ d, isBareChar d = false → ¬ c = d := fun d => ne_of_isBareChar hc
  have hspace : (c == ' ') = false := beq_false_of_ne (hne ' ' (by decide))
  have hmarks : hasMarks false t = false :=
    hasMarks_of_isBare fun d hd => h.2 d (List.mem_cons_of_mem c hd)
  simp (disch := decide) only [hasIndicators, hdashes, hpoints, hspace, hmarks]
  simp (disch := decide) [isIndicator, hne]

theorem isSpecial_of_isBareChar {c : Char} (h : isBareChar c = true) : isSpecial c = false := by
  have hrange := toNat_of_isBareChar h
  have hlow : ' ' ≤ c := by
    rw [Char.le_def, UInt32.le_iff_toNat_le]
    exact Nat.le_trans (show 32 ≤ 48 by decide) (show 48 ≤ c.toNat by omega)
  have hhigh : c ≤ '~' := by
    rw [Char.le_def, UInt32.le_iff_toNat_le]
    exact (show c.toNat ≤ 126 by omega)
  simp [isSpecial, hlow, hhigh]

/-- A bare word that has no other form is written as it stands. -/
theorem formOf_eq_plain {text : String} (h : IsBare text.toList) (htag : plainTag text = Tag.str) :
    formOf text = .plain := by
  have hspecial : text.toList.any isSpecial = false :=
    List.any_eq_false.mpr fun c hc => by simp [isSpecial_of_isBareChar (h.2 c hc)]
  have hbreak : '\n' ∉ text.toList := h.not_mem (by decide)
  have hspace : ' ' ∉ text.toList := h.not_mem (by decide)
  have hhead : (text.toList.head? == some ' ') = false :=
    beq_false_of_ne fun heq => hspace (List.mem_of_mem_head? heq)
  have hlast : (text.toList.getLast? == some ' ') = false :=
    beq_false_of_ne fun heq => hspace (List.mem_of_mem_getLast? heq)
  have hafter : Chars.occursIn [' ', '\n'] text.toList = false :=
    occursIn_of_isBare h (d := ' ') (by decide) (by decide)
  have hbefore : Chars.occursIn ['\n', ' '] text.toList = false :=
    occursIn_of_isBare h (d := ' ') (by decide) (by decide)
  simp [formOf, hspecial, hafter, hbefore, hbreak, hhead, hlast, hasIndicators_of_isBare h, htag]

theorem foldText_of_isBare (h : ∀ c ∈ w, isBareChar c = true) (split : Bool) (indent : Nat)
    (before : Option Char) (column : Nat) : foldText false split indent before column w = w := by
  induction w generalizing before column with
  | nil => rfl
  | cons c r ih =>
    rw [List.forall_mem_cons] at h
    have hne : ∀ d, isBareChar d = false → ¬ c = d := fun d => ne_of_isBareChar h.1
    simp (disch := decide) [foldText, hne, ih h.2]

theorem textAt_eq {text : String} (h : IsBare text.toList) (htag : plainTag text = Tag.str)
    (split : Bool) (indent column : Nat) : textAt split indent column text = text.toList := by
  rw [textAt, formOf_eq_plain h htag]
  exact foldText_of_isBare h.2 split indent none column

end Texts

/-! ## 4. Values -/

/-- Values that are written as bare words: texts that are bare words and have no other form, truth
values, and positive integers. -/
def IsBareValue : Json → Prop
  | .str s => IsBare s.toList ∧ plainTag s = Tag.str
  | .bool _ => True
  | .int n => 0 < n
  | _ => False

theorem scalarValue_int (text : String) :
    scalarValue Tag.int text = (intValue text.toList).map .int := by
  have htags : Tag.int ≠ Tag.str ∧ Tag.int ≠ Tag.null ∧ Tag.int ≠ Tag.bool := by decide
  simp [scalarValue, htags]

/-- What is written of such a value is read as the value, if it can be written. -/
theorem isWord_of_isBareValue {j : Json} (h : IsBareValue j)
    (hwritable : Json.isWritable j = true) : IsWord j := by
  cases j with
  | str s =>
    refine ⟨h.1, ?_⟩
    have htag : plainTag (String.ofList s.toList) = Tag.str := by simpa using h.2
    rw [word, plainValue, htag]
    simp [scalarValue]
  | bool b => cases b <;> exact ⟨by decide, by rfl⟩
  | int n =>
    obtain ⟨k, rfl⟩ := Int.eq_ofNat_of_zero_le (Int.le_of_lt h)
    have hk : 0 < k := Int.natCast_pos.mp h
    have hlength : (Chars.digits k).length ≤ Chars.maxDigits := by
      simpa [Json.isWritable] using hwritable
    have hword : word (.int k) = Chars.digits k := by
      rw [word, Json.intText, if_neg (by omega)]
      rfl
    refine ⟨hword ▸ (isDecimal_digits hk).isBare, ?_⟩
    rw [hword, plainValue, (isDecimal_digits hk).plainTag, scalarValue_int, String.toList_ofList,
      (isDecimal_digits hk).intValue, decimal, Chars.integer?_digits hlength]
    rfl
  | _ => exact h.elim

theorem valueText_eq {j : Json} (h : IsBareValue j) (indent column : Nat) :
    valueText indent column j = ' ' :: word j := by
  cases j with
  | str s => rw [valueText, textAt_eq h.1 h.2, word]
  | bool b => cases b <;> rfl
  | int n => rfl
  | _ => exact h.elim

theorem sorted_eq_self {j : Json} (h : IsBareValue j) : sorted j = j := by
  cases j with
  | arr js => exact h.elim
  | obj ms => exact h.elim
  | _ => rfl

end Yaml

end Recall
