/-
Recall.Proofs.Query.Operator — which tokens are operators, and what they ask for.

A token with a known key is read as `ofOperator?` says of the key and the *clean* value
(`operator?_typed`), and this is the only way to be an operator (`exists_of_operator?`). The clean
value has lost blanks, then quotes, then blanks again. So nothing is lost of a plain value, and
nothing of any trimmed value between quotes with a space on either side: the quotes go first and the
spaces after them, and by then its own quotes are safe (`cleanValue_padded`).

A token that is no operator is a word as it was typed (`word?_ofToken`).
-/
import Recall.Proofs.Text.Case
import Recall.Query.Operator

namespace Recall

/-- A text that is not empty and has no blanks at its ends. -/
def Text.Trimmed (s : String) : Prop := s ≠ "" ∧ Text.trim s = s

instance (s : String) : Decidable (Text.Trimmed s) :=
  inferInstanceAs (Decidable (_ ∧ _))

theorem Text.trimmed_iff {s : String} :
    Text.Trimmed s ↔ s.toList ≠ [] ∧ Chars.trim s.toList = s.toList := by
  rw [Text.Trimmed, ← Text.toList_trim, String.toList_inj]
  simp

theorem Text.trimmed_lower {s : String} (h : Text.Trimmed s) : Text.Trimmed (Text.lower s) := by
  rw [Text.trimmed_iff] at h ⊢
  rw [Text.toList_lower]
  exact ⟨fun hnil => h.1 (Chars.lower_eq_nil_iff.mp hnil), Chars.trim_lower_eq_self_iff.mpr h.2⟩

/-- The name under which a key is written. -/
def Key.name : Key → String
  | .kind => "type"
  | .space => "space"
  | .spaceId => "spaceid"
  | .tag => "tag"
  | .has => "has"
  | .is => "is"
  | .verbatim => "verbatim"

/-- The name of a facet. -/
def Facet.name : Facet → String
  | .note => "note"
  | .citation => "citation"

theorem Key.ofName?_lower_name (k : Key) :
    Key.ofName? (String.ofList (Chars.lower k.name.toList)) = some k := by
  cases k <;> decide +kernel

namespace Term

/-! ## 1. Values -/

/-- A clean value has no blanks at its ends. -/
theorem trim_cleanValue (cs : List Char) : Chars.trim (cleanValue cs) = cleanValue cs :=
  Chars.trim_trim _

theorem cleanValue_plain {v : List Char} (h : Chars.Plain v) : cleanValue v = v := by
  have htrim : Chars.trim v = v := Chars.trim_plain h
  have hstrip : Chars.strip (· == '"') v = v := by
    refine Chars.strip_eq_self_iff.mpr ⟨fun c hc => ?_, fun c hc => ?_⟩
    · exact beq_false_of_ne (h c (List.mem_of_mem_head? hc)).2
    · exact beq_false_of_ne (h c (List.mem_of_mem_getLast? hc)).2
  rw [cleanValue, htrim, hstrip, htrim]

/-- A value between quotes, with a space on either side. -/
def padded (v : List Char) : List Char :=
  '"' :: ' ' :: v ++ [' ', '"']

/-- A trimmed value survives the cleaning when it is padded, whatever it begins and ends with. -/
theorem cleanValue_padded {v : List Char} (h : Chars.trim v = v) : cleanValue (padded v) = v := by
  have houter : Chars.trim (padded v) = padded v := by
    refine Chars.strip_eq_self_iff.mpr ⟨fun c hc => ?_, fun c hc => ?_⟩
    · obtain rfl : '"' = c := by simpa [padded] using hc
      decide
    · obtain rfl : '"' = c := by simpa [padded, List.getLast?_cons] using hc
      decide
  -- The quotes go up to the padding, and do not get to those of the value.
  have hmiddle : Chars.strip (· == '"') (padded v) = ' ' :: v ++ [' '] := by
    have hsplit : padded v = ['"'] ++ (' ' :: v ++ [' ']) ++ ['"'] := by simp [padded]
    rw [hsplit]
    refine Chars.strip_append_append (by simp) (by simp) ?_
    refine Chars.strip_eq_self_iff.mpr ⟨fun c hc => ?_, fun c hc => ?_⟩
    · obtain rfl : ' ' = c := by simpa using hc
      decide
    · obtain rfl : ' ' = c := by simpa [List.getLast?_cons] using hc
      decide
  have hinner : Chars.trim (' ' :: v ++ [' ']) = v := by
    have hsplit : ' ' :: v ++ [' '] = [' '] ++ v ++ [' '] := by simp
    rw [hsplit]
    exact Chars.strip_append_append (by simp; decide) (by simp; decide) h
  rw [cleanValue, houter, hmiddle, hinner]

/-! ## 2. Tokens -/

/-- The token with a key, negated or not, and a text behind the colon. -/
def typed (negated : Bool) (key : Key) (rest : List Char) : List Char :=
  (if negated then ['-'] else []) ++ key.name.toList ++ ':' :: rest

theorem operator?_typed (negated : Bool) (key : Key) {rest : List Char}
    (h : cleanValue rest ≠ []) :
    operator? (typed negated key rest) =
      ofOperator? key negated (String.ofList (cleanValue rest)) := by
  have hread : operator? (typed negated key rest) =
      if (cleanValue rest).isEmpty then none
      else (Key.ofName? (String.ofList (Chars.lower key.name.toList))).bind fun k =>
        ofOperator? k negated (String.ofList (cleanValue rest)) := by
    cases negated <;> cases key <;> rfl
  rw [hread, if_neg (by simpa using h), Key.ofName?_lower_name, Option.bind_some]

/-- An operator has a key that is known, and a value that is left when blanks and quotes have gone
from its ends. -/
theorem exists_of_operator? {token : List Char} {t : Term} (h : operator? token = some t) :
    ∃ key negated rest, cleanValue rest ≠ [] ∧
      ofOperator? key negated (String.ofList (cleanValue rest)) = some t := by
  unfold operator? at h
  split at h
  · cases h
  · rename_i rest _
    split at h
    rename_i negated name _
    dsimp only at h
    split at h
    · cases h
    · rename_i hvalue
      obtain ⟨key, -, hkey⟩ := Option.bind_eq_some_iff.mp h
      exact ⟨key, negated, rest, by simpa using hvalue, hkey⟩

theorem operator?_eq_none {token : List Char} (h : ':' ∉ token) : operator? token = none := by
  have hdrop : token.dropWhile (· != ':') = [] :=
    List.dropWhile_eq_nil_iff.mpr fun c hc => by
      simpa using fun heq : c = ':' => h (heq ▸ hc)
  rw [operator?, hdrop]

/-! ## 3. Words -/

/-- An operator is no word. -/
theorem word?_of_ofOperator? {key : Key} {negated : Bool} {value : String} {t : Term}
    (h : ofOperator? key negated value = some t) : t.word? = none := by
  cases key with
  | kind =>
    cases negated with
    | true => cases h
    | false =>
      obtain ⟨k, -, rfl⟩ := Option.map_eq_some_iff.mp h
      rfl
  | space | spaceId =>
    cases negated with
    | true => cases h
    | false =>
      cases h
      rfl
  | tag =>
    cases h
    rfl
  | has | is | verbatim =>
    obtain ⟨v, -, rfl⟩ := Option.map_eq_some_iff.mp h
    rfl

/-- The word that a token is, if it is no operator. -/
theorem word?_ofToken (token : String) :
    (ofToken token).word? = if operator? token.toList = none then some token else none := by
  rw [ofToken]
  cases h : operator? token.toList with
  | none => rfl
  | some t =>
    obtain ⟨key, negated, rest, -, hkey⟩ := exists_of_operator? h
    simpa using word?_of_ofOperator? hkey

theorem ofToken_typed {negated : Bool} {key : Key} {rest : List Char} {t : Term}
    (h : cleanValue rest ≠ [])
    (ht : ofOperator? key negated (String.ofList (cleanValue rest)) = some t) :
    ofToken (String.ofList (typed negated key rest)) = t := by
  rw [ofToken, String.toList_ofList, operator?_typed negated key h, ht]
  rfl

end Term

end Recall
