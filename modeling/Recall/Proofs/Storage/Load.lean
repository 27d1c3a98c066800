/-
Recall.Proofs.Storage.Load — what stored text and bytes may give.

Stored text that is JSON gives the value it denotes, and text that is none gives the fallback, unless
it passes a limit on the depth of nesting or on the digits of an integer: then it gives neither
(`loads`). Bytes give what the text they encode gives, and the fallback if they encode none; those
that UTF-8 wrote encode the text they were written from (`loadBytes_utf8`).

The limits are met before the end of the text is seen, so text that passes one is refused even where
it is no JSON and the fallback would be the only answer (`loadText_unfinished`). Of the levels that
are left for a text the last few are kept for the report that it is malformed. In them JSON is read,
and what is no JSON may be refused.
-/
import Recall.Proofs.Json.Encoding
import Recall.Proofs.Json.Reader
import Recall.Storage.Load

namespace Recall

namespace Storage

open Json (Limit Raw IsText TextExceeds reportLevels)

/-- What a text with a fallback may give, with `depth` levels for it besides those of a report: the
value that the text denotes, the fallback where it denotes none, and neither of them if it passes a
limit. -/
structure Loads (depth : Nat) (cs : List Symbol) (fallback : Raw) (x : Except Limit Raw) : Prop where
  /-- JSON gives its value if and only if it passes no limit. -/
  denoted : ∀ v, IsText cs v → (x = .ok v ↔ ∀ l, ¬ TextExceeds (depth + reportLevels) l cs)
  /-- Nothing is given but the value, or the fallback for what is no JSON. -/
  ok : ∀ v, x = .ok v → IsText cs v ∨ v = fallback ∧ ∀ j, ¬ IsText cs j
  /-- Text that passes a limit gives nothing, JSON or not. -/
  refused : ∀ l, TextExceeds (depth + reportLevels) l cs → ∃ l', x = .error l'
  /-- A limit that is named is passed. Of what is no JSON the report may be nested too deep. -/
  error : ∀ l, x = .error l → TextExceeds (depth + reportLevels) l cs ∨
    l = .tooDeep ∧ TextExceeds depth .tooDeep cs ∧ ∀ j, ¬ IsText cs j

/-- An empty text is malformed like any other that is no JSON. -/
theorem loadText_eq (depth : Nat) (cs : List Symbol) (fallback : Raw) :
    loadText (depth + reportLevels) cs fallback =
      match Json.read (depth + reportLevels) cs with
      | .ok j => .ok j
      | .error e =>
        match e.limit? with
        | none => .ok fallback
        | some l => .error l := by
  cases cs with
  | nil =>
    have hread : ∀ d, Json.read d [] = .error (.malformed (d + 1)) := fun d => by cases d <;> rfl
    have hleft : ¬ depth + reportLevels + 1 < reportLevels := by omega
    simp only [hread, Json.ReadError.limit?, if_neg hleft]
    rfl
  | cons c r => rfl

/-- What is given for a text that is refused or malformed. -/
theorem error_of_limit? {depth : Nat} {cs : List Symbol} {e : Json.ReadError} {l : Limit}
    (hread : Json.read (depth + reportLevels) cs = .error e) (hl : e.limit? = some l) :
    TextExceeds (depth + reportLevels) l cs ∨
      l = .tooDeep ∧ TextExceeds depth .tooDeep cs ∧ ∀ j, ¬ IsText cs j := by
  cases e with
  | missing => cases hl
  | malformed left =>
    by_cases hleft : left < reportLevels
    · rw [Json.ReadError.limit?, if_pos hleft, Option.some.injEq] at hl
      exact Or.inr ⟨hl.symm, Json.textExceeds_of_malformed hread (by omega),
        Json.not_isText_of_read hread nofun⟩
    · rw [Json.ReadError.limit?, if_neg hleft] at hl
      cases hl
  | limit l' =>
    obtain rfl := Option.some.inj hl
    exact Or.inl (Json.textExceeds_of_read hread)

theorem loads_loadText (depth : Nat) (cs : List Symbol) (fallback : Raw) :
    Loads depth cs fallback (loadText (depth + reportLevels) cs fallback) := by
  rw [loadText_eq]
  cases hread : Json.read (depth + reportLevels) cs with
  | ok j =>
    obtain ⟨htext, hno⟩ := Json.read_eq_ok_iff.mp hread
    refine ⟨fun v hv => ⟨fun _ => hno, fun _ => ?_⟩, ?_, fun l hl => absurd hl (hno l), nofun⟩
    · cases hread.symm.trans (Json.read_eq_ok_iff.mpr ⟨hv, hno⟩)
      rfl
    · rintro v ⟨⟩
      exact Or.inl htext
  | error e =>
    have hdenoted : ∀ v, IsText cs v → ¬ ∀ l, ¬ TextExceeds (depth + reportLevels) l cs := by
      intro v hv hno
      cases hread.symm.trans (Json.read_eq_ok_iff.mpr ⟨hv, hno⟩)
    cases hl : e.limit? with
    | none =>
      simp only [hl]
      have hlimit : ∀ l, e ≠ .limit l := by
        rintro l rfl
        cases hl
      have hnone := Json.not_isText_of_read hread hlimit
      refine ⟨fun v hv => absurd hv (hnone v), ?_, fun l hover => ?_, nofun⟩
      · rintro v ⟨⟩
        exact Or.inr ⟨rfl, hnone⟩
      · obtain ⟨l', hrefused⟩ := Json.refused_of_textExceeds hover
        exact absurd (Except.error.inj (hread.symm.trans hrefused)) (hlimit l')
    | some l =>
      simp only [hl]
      refine ⟨fun v hv => ⟨nofun, fun hno => absurd hno (hdenoted v hv)⟩, nofun,
        fun _ _ => ⟨l, rfl⟩, ?_⟩
      rintro l' ⟨⟩
      exact error_of_limit? hread hl

/-- Stored text gives what it may, and so do stored bytes, by the text they encode; bytes that encode
none give the fallback. -/
theorem loads (depth : Nat) (text : List Symbol) (bs : List UInt8) (fallback : Raw) :
    Loads depth text fallback (loadText (depth + reportLevels) text fallback) ∧
    match Encoding.decode? bs with
    | none => loadBytes (depth + reportLevels) bs fallback = .ok fallback
    | some cs => Loads depth cs fallback (loadBytes (depth + reportLevels) bs fallback) := by
  refine ⟨loads_loadText depth text fallback, ?_⟩
  cases hdecode : Encoding.decode? bs with
  | none => simp only [loadBytes, hdecode]
  | some cs =>
    simp only [loadBytes, hdecode]
    exact loads_loadText depth cs fallback

/-- Bytes that UTF-8 wrote give what their text gives. A NUL or a byte order mark in front, which no
JSON has, could make them bytes of another encoding. -/
theorem loadBytes_utf8 (depth : Nat) {cs : List Char} (hnul : '\x00' ∉ cs)
    (hmark : cs.head? ≠ some '\uFEFF') (fallback : Raw) :
    loadBytes depth (Encoding.utf8 cs) fallback = loadText depth (Symbol.ofChars cs) fallback := by
  rw [loadBytes, Encoding.decode?_utf8 hnul hmark]

theorem loadText_limit {depth : Nat} {l : Limit} {cs : List Symbol} (hcs : Json.Begins cs)
    (h : Json.value depth cs = .error (.limit l)) (fallback : Raw) :
    loadText depth cs fallback = .error l := by
  have hread := Json.read_limit hcs h
  obtain ⟨c, r, rfl, -⟩ := hcs
  simp only [loadText, List.isEmpty_cons, Bool.false_eq_true, if_false, hread,
    Json.ReadError.limit?]

/-- Two texts that are no JSON, for which the fallback would be the only answer: brackets that are
never closed, and a long integer behind one. -/
theorem loadText_unfinished :
    loadText 994 (List.replicate 4000 (.char '[')) .null = .error .tooDeep ∧
      loadText 994 (.char '[' :: List.replicate 4301 (.char '1')) .null = .error .numberTooLong := by
  have hbracket : ∀ r, Json.Begins (.char '[' :: r) := fun r => ⟨.char '[', r, rfl, by decide⟩
  constructor
  · have hsplit : List.replicate 4000 (Symbol.char '[') =
        List.replicate (994 + 1) (.char '[') ++ List.replicate 3005 (.char '[') := by
      rw [List.replicate_append_replicate]
    have hbegins : Json.Begins (List.replicate 4000 (.char '[')) := by
      rw [List.replicate_succ]
      exact hbracket _
    exact loadText_limit hbegins (hsplit ▸ Json.value_brackets 994 _) _
  · have hdigits : Json.Whole (List.replicate 4301 '1') := by
      refine Or.inr ⟨⟨?_, ?_⟩, ?_⟩
      · rw [List.replicate_succ]
        exact List.cons_ne_nil _ _
      · intro c hc
        rw [List.eq_of_mem_replicate hc]
        rfl
      · rw [List.replicate_succ, List.head?_cons]
        decide
    have hlong : Json.TooLong (List.replicate 4301 (.char '1')) := by
      have hlen : Chars.maxDigits < (List.replicate 4301 '1').length := by
        rw [List.length_replicate]
        decide
      have h : Json.TooLong (Symbol.ofChars (List.replicate 4301 '1') ++ []) :=
        .mk hdigits hlen nofun
      rw [List.append_nil, Symbol.ofChars, List.map_replicate] at h
      exact h
    exact loadText_limit (hbracket _)
      (Json.value_list_error hlong.beginsDigit.beginsPlain.begins (Json.value_tooLong hlong 993)) _

end Storage

end Recall
