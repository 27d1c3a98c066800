/-
Recall.Proofs.Text.Symbol — characters among code points.

Characters are code points, and they can be told from them (`chars?_eq_some_iff`). A number that is a
character's is the character's code point (`ofCode_toNat`).
-/
import Mathlib.Data.List.Basic
import Recall.Text.Symbol

namespace Recall

namespace Symbol

@[simp] theorem ofChars_nil : ofChars [] = [] := rfl

@[simp] theorem ofChars_cons (c : Char) (cs : List Char) :
    ofChars (c :: cs) = .char c :: ofChars cs := rfl

@[simp] theorem ofChars_append (cs ds : List Char) :
    ofChars (cs ++ ds) = ofChars cs ++ ofChars ds :=
  List.map_append

@[simp] theorem length_ofChars (cs : List Char) : (ofChars cs).length = cs.length :=
  List.length_map _

theorem ofChars_injective : Function.Injective ofChars :=
  List.map_injective_iff.mpr fun _ _ h => Symbol.char.inj h

theorem chars?_eq_some_iff {s : List Symbol} {cs : List Char} :
    chars? s = some cs ↔ s = ofChars cs := by
  induction s generalizing cs with
  | nil => cases cs <;> simp [chars?]
  | cons c r ih =>
    cases c with
    | half n => cases cs <;> simp [chars?]
    | char c => cases cs <;> simp [chars?, ih, and_comm]

theorem ofCode_toNat (c : Char) : ofCode c.toNat = .char c := by
  have hvalid : c.toNat < 0xD800 ∨ 0xDFFF < c.toNat ∧ c.toNat < 0x110000 := c.valid
  rw [ofCode, dif_neg (by omega), Char.ofNat_toNat]

end Symbol

end Recall
