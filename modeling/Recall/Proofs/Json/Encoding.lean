/-
Recall.Proofs.Json.Encoding — bytes that UTF-8 wrote are read as the text they were written from.

A character is written in one to four bytes and each form is read back (`utf8?_utf8`,
`plainUtf8?_utf8`). Which encoding is meant is decided by the first bytes, and the bytes of a text
are taken for UTF-8 if it has no NUL, whose byte other encodings have beside every ASCII character,
and no byte order mark in front, which would be dropped (`decode?_utf8`).
-/
import Recall.Json.Encoding
import Recall.Proofs.Text.Symbol

namespace Recall

namespace Encoding

/-! ## 1. UTF-8 -/

/-- The bytes of a text in UTF-8. -/
def utf8 (cs : List Char) : List UInt8 :=
  cs.flatMap String.utf8EncodeChar

theorem toNat_ofNat {n : Nat} (h : n < 256) : (UInt8.ofNat n).toNat = n := by
  rw [UInt8.toNat_ofNat', Nat.mod_eq_of_lt h]

theorem tail?_ofNat {n : Nat} (h : n < 64) : tail? (UInt8.ofNat (n + 128)) = some n := by
  have hbyte : (UInt8.ofNat (n + 128)).toNat = n + 128 := toNat_ofNat (by omega)
  have hrange : (0x80 : UInt8) ≤ UInt8.ofNat (n + 128) ∧ UInt8.ofNat (n + 128) ≤ 0xBF := by
    rw [UInt8.le_iff_toNat_le, UInt8.le_iff_toNat_le, hbyte]
    change 128 ≤ n + 128 ∧ n + 128 ≤ 191
    omega
  rw [tail?, if_pos hrange, hbyte, Nat.add_sub_cancel]

theorem symbol?_toNat {least : Nat} {c : Char} (h : least ≤ c.toNat) :
    symbol? least c.toNat = some (.char c) := by
  have hvalid : c.toNat < 0xD800 ∨ 0xDFFF < c.toNat ∧ c.toNat < 0x110000 := c.valid
  rw [symbol?, if_neg (by omega), Symbol.ofCode_toNat]

section Forms

variable {s : Symbol} {a b c d : UInt8} {l m n : Nat}

theorem utf8?_one (h : a.toNat < 0x80) (r : List UInt8) :
    utf8? (a :: r) = (utf8? r).map (.char (Char.ofNat a.toNat) :: ·) := by
  rw [utf8?.eq_def]
  simp only [UInt8.lt_iff_toNat_lt, UInt8.reduceToNat]
  rw [if_pos h]
  cases utf8? r <;> rfl

theorem utf8?_two (h : 0xC0 ≤ a.toNat ∧ a.toNat < 0xE0) (hb : tail? b = some n)
    (hs : symbol? 0x80 ((a.toNat - 0xC0) * 64 + n) = some s) (r : List UInt8) :
    utf8? (a :: b :: r) = (utf8? r).map (s :: ·) := by
  rw [utf8?.eq_def]
  simp only [UInt8.lt_iff_toNat_lt, UInt8.le_iff_toNat_le, UInt8.reduceToNat]
  rw [if_neg (by omega), if_pos h]
  simp only [hb, hs, bind, Option.bind]
  cases utf8? r <;> rfl

theorem utf8?_three (h : 0xE0 ≤ a.toNat ∧ a.toNat < 0xF0) (hb : tail? b = some m)
    (hc : tail? c = some n)
    (hs : symbol? 0x800 (((a.toNat - 0xE0) * 64 + m) * 64 + n) = some s)
    (r : List UInt8) : utf8? (a :: b :: c :: r) = (utf8? r).map (s :: ·) := by
  rw [utf8?.eq_def]
  simp only [UInt8.lt_iff_toNat_lt, UInt8.le_iff_toNat_le, UInt8.reduceToNat]
  rw [if_neg (by omega), if_neg (by omega), if_pos h]
  simp only [hb, hc, hs, bind, Option.bind]
  cases utf8? r <;> rfl

theorem utf8?_four (h : 0xF0 ≤ a.toNat ∧ a.toNat < 0xF8) (hb : tail? b = some l)
    (hc : tail? c = some m) (hd : tail? d = some n)
    (hs : symbol? 0x10000 ((((a.toNat - 0xF0) * 64 + l) * 64 + m) * 64 + n) = some s)
    (r : List UInt8) : utf8? (a :: b :: c :: d :: r) = (utf8? r).map (s :: ·) := by
  rw [utf8?.eq_def]
  simp only [UInt8.lt_iff_toNat_lt, UInt8.le_iff_toNat_le, UInt8.reduceToNat]
  rw [if_neg (by omega), if_neg (by omega), if_neg (by omega), if_pos h]
  simp only [hb, hc, hd, hs, bind, Option.bind]
  cases utf8? r <;> rfl

end Forms

theorem utf8?_append (c : Char) (bs : List UInt8) :
    utf8? (String.utf8EncodeChar c ++ bs) = (utf8? bs).map (.char c :: ·) := by
  have hv : c.val.toNat = c.toNat := rfl
  have hmax : c.toNat < 0x110000 := by
    have hvalid : c.toNat < 0xD800 ∨ 0xDFFF < c.toNat ∧ c.toNat < 0x110000 := c.valid
    omega
  have htail : ∀ n, tail? (UInt8.ofNat (n % 64 + 128)) = some (n % 64) :=
    fun n => tail?_ofNat (Nat.mod_lt n (by decide))
  unfold String.utf8EncodeChar
  dsimp only
  rw [hv]
  split
  · rename_i hone
    have hbyte : (UInt8.ofNat c.toNat).toNat = c.toNat := toNat_ofNat (by omega)
    rw [List.singleton_append, utf8?_one (by omega), hbyte, Char.ofNat_toNat]
  · split
    · rename_i hone htwo
      have hbyte : (UInt8.ofNat (c.toNat / 64 % 32 + 192)).toNat = c.toNat / 64 % 32 + 192 :=
        toNat_ofNat (by omega)
      refine utf8?_two (by omega) (htail _) ?_ bs
      have hn : (c.toNat / 64 % 32 + 192 - 0xC0) * 64 + c.toNat % 64 = c.toNat := by omega
      rw [hbyte, hn]
      exact symbol?_toNat (by omega)
    · split
      · rename_i hone htwo hthree
        have hbyte : (UInt8.ofNat (c.toNat / 4096 % 16 + 224)).toNat =
            c.toNat / 4096 % 16 + 224 := toNat_ofNat (by omega)
        refine utf8?_three (by omega) (htail _) (htail _) ?_ bs
        have hn : ((c.toNat / 4096 % 16 + 224 - 0xE0) * 64 + c.toNat / 64 % 64) * 64 +
            c.toNat % 64 = c.toNat := by omega
        rw [hbyte, hn]
        exact symbol?_toNat (by omega)
      · rename_i hone htwo hthree
        have hbyte : (UInt8.ofNat (c.toNat / 262144 % 8 + 240)).toNat =
            c.toNat / 262144 % 8 + 240 := toNat_ofNat (by omega)
        refine utf8?_four (by omega) (htail _) (htail _) (htail _) ?_ bs
        have hn : (((c.toNat / 262144 % 8 + 240 - 0xF0) * 64 + c.toNat / 4096 % 64) * 64 +
            c.toNat / 64 % 64) * 64 + c.toNat % 64 = c.toNat := by omega
        rw [hbyte, hn]
        exact symbol?_toNat (by omega)

/-- What UTF-8 wrote is read back. -/
theorem utf8?_utf8 (cs : List Char) : utf8? (utf8 cs) = some (Symbol.ofChars cs) := by
  induction cs with
  | nil => rfl
  | cons c r ih =>
    rw [utf8, List.flatMap_cons, utf8?_append, ← utf8, ih]
    rfl

theorem plainUtf8?_utf8 (cs : List Char) : plainUtf8? (utf8 cs) = some cs := by
  rw [plainUtf8?, utf8?_utf8, Option.bind_some, Symbol.chars?_eq_some_iff]

/-! ## 2. Detection -/

/-- Only NUL has a zero byte, and no character has a byte of the marks of other encodings. -/
theorem toNat_of_mem_utf8EncodeChar {c : Char} {b : UInt8} (hc : c ≠ '\x00')
    (h : b ∈ String.utf8EncodeChar c) : 0 < b.toNat ∧ b.toNat < 0xF8 := by
  have hpos : 0 < c.toNat := by
    refine Nat.pos_of_ne_zero fun hzero => hc ?_
    rw [← Char.ofNat_toNat c, hzero]
  have hv : c.val.toNat = c.toNat := rfl
  unfold String.utf8EncodeChar at h
  dsimp only at h
  rw [hv] at h
  have hbyte : ∀ n, 0 < n → n < 0xF8 → 0 < (UInt8.ofNat n).toNat ∧ (UInt8.ofNat n).toNat < 0xF8 := by
    intro n hn hlt
    rw [toNat_ofNat (by omega)]
    exact ⟨hn, hlt⟩
  split at h
  · obtain rfl := List.mem_singleton.mp h
    exact hbyte _ hpos (by omega)
  · split at h
    · simp only [List.mem_cons, List.not_mem_nil, or_false] at h
      rcases h with rfl | rfl <;> exact hbyte _ (by omega) (by omega)
    · split at h
      · simp only [List.mem_cons, List.not_mem_nil, or_false] at h
        rcases h with rfl | rfl | rfl <;> exact hbyte _ (by omega) (by omega)
      · simp only [List.mem_cons, List.not_mem_nil, or_false] at h
        rcases h with rfl | rfl | rfl | rfl <;> exact hbyte _ (by omega) (by omega)

/-- Bytes without a zero are taken for UTF-8, if no byte order mark stands in front. -/
theorem decodeUnmarked?_of_bytes {bs : List UInt8} (hzero : 0 ∉ bs) :
    decodeUnmarked? bs = utf8? bs := by
  unfold decodeUnmarked?
  split
  · rename_i a b c d r
    simp only [List.mem_cons, not_or] at hzero
    rw [if_neg (Ne.symm hzero.1), if_neg (Ne.symm hzero.2.1)]
  · rename_i a b
    simp only [List.mem_cons, not_or] at hzero
    rw [if_neg (Ne.symm hzero.1), if_neg (Ne.symm hzero.2.1)]
  · rfl

theorem decode?_of_bytes {bs : List UInt8} (hbyte : ∀ b ∈ bs, 0 < b.toNat ∧ b.toNat < 0xF8)
    (hmark : ¬ [0xEF, 0xBB, 0xBF] <+: bs) : decode? bs = utf8? bs := by
  have hbad : ∀ {a : UInt8} {m : List UInt8}, a.toNat = 0 ∨ 0xF8 ≤ a.toNat →
      ¬ (a :: m).isPrefixOf bs = true := by
    intro a m ha hprefix
    have hmem := (List.isPrefixOf_iff_prefix.mp hprefix).subset List.mem_cons_self
    have h := hbyte a hmem
    omega
  have hzero : 0 ∉ bs := fun h => absurd (hbyte 0 h).1 (by decide)
  rw [decode?, if_neg (hbad (by decide)), if_neg (hbad (by decide)), if_neg (hbad (by decide)),
    if_neg (hbad (by decide)), if_neg (mt List.isPrefixOf_iff_prefix.mp hmark),
    decodeUnmarked?_of_bytes hzero]

/-- The mark of UTF-8 is a character that UTF-8 wrote. -/
theorem head?_of_mark {cs : List Char} (h : [0xEF, 0xBB, 0xBF] <+: utf8 cs) :
    cs.head? = some '\uFEFF' := by
  obtain ⟨r, hr⟩ := h
  have hmark : String.utf8EncodeChar '\uFEFF' = [0xEF, 0xBB, 0xBF] := by decide
  have hread := utf8?_utf8 cs
  rw [← hr, ← hmark, utf8?_append] at hread
  obtain ⟨s, -, hs⟩ := Option.map_eq_some_iff.mp hread
  cases cs with
  | nil => cases hs
  | cons c r =>
    obtain rfl := Symbol.char.inj (List.cons.inj hs).1
    rfl

/-- A text without NUL and without a byte order mark in front is read from its bytes in UTF-8. -/
theorem decode?_utf8 {cs : List Char} (hnul : '\x00' ∉ cs) (hmark : cs.head? ≠ some '\uFEFF') :
    decode? (utf8 cs) = some (Symbol.ofChars cs) := by
  rw [decode?_of_bytes ?_ fun h => hmark (head?_of_mark h), utf8?_utf8]
  intro b hb
  obtain ⟨c, hc, hbc⟩ := List.mem_flatMap.mp hb
  exact toNat_of_mem_utf8EncodeChar (fun h => hnul (h ▸ hc)) hbc

end Encoding

end Recall
