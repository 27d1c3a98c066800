/-
Recall.Number.Binary64 — the numbers of the binary64 format, exactly.

A finite number is `± mantissa · 2 ^ exponent` with a mantissa below `2 ^ 53` and an exponent of at
least -1074. `ofDecimal` rounds a decimal to the nearest such number, a tie going to the even
mantissa; `times` and `add` round the exact result in the same way. All arithmetic is on `Nat` and
`Int`.
-/
namespace Recall

/-- A number of the binary64 format. -/
inductive Binary64 where
  | nan
  | infinite (negative : Bool)
  | finite (negative : Bool) (mantissa : Nat) (exponent : Int)
  deriving DecidableEq, Repr

namespace Binary64

/-- The quotient rounded to the nearest integer, a tie to the even one. -/
def roundDiv (num den : Nat) : Nat :=
  let q := num / den
  let r := num % den
  if 2 * r < den then q else if den < 2 * r then q + 1 else q + q % 2

/-- Numerator and denominator of `num / den / 2 ^ e`. -/
def scaled (num den : Nat) (e : Int) : Nat × Nat :=
  if 0 ≤ e then (num, den * Nat.pow 2 e.toNat) else (num * Nat.pow 2 (-e).toNat, den)

/-- The least exponent at which `num / den` has a mantissa below `2 ^ 53`, and -1074 at least. -/
def exponentOf (num den : Nat) : Int :=
  let guess : Int := (num.log2 : Int) - (den.log2 : Int) - 53
  let (n, d) := scaled num den guess
  max (-1074) (if n / d < Nat.pow 2 53 then guess else guess + 1)

/-- The number nearest to `num / den`. -/
def ofRatio (negative : Bool) (num den : Nat) : Binary64 :=
  if num = 0 then .finite negative 0 (-1074)
  else
    let e := exponentOf num den
    let (n, d) := scaled num den e
    let m := roundDiv n d
    let (m, e) := if m = Nat.pow 2 53 then (Nat.pow 2 52, e + 1) else (m, e)
    if 971 < e then .infinite negative else .finite negative m e

/-- The number nearest to `± digits · 10 ^ exponent`. Decimals beyond every finite number and
decimals that round to zero are recognised by their size, so that no huge power is computed. -/
def ofDecimal (negative : Bool) (digits : Nat) (exponent : Int) : Binary64 :=
  let size : Int := (Nat.toDigits 10 digits).length + exponent
  if digits = 0 ∨ size < -400 then .finite negative 0 (-1074)
  else if 400 < size then .infinite negative
  else if 0 ≤ exponent then ofRatio negative (digits * Nat.pow 10 exponent.toNat) 1
  else ofRatio negative digits (Nat.pow 10 (-exponent).toNat)

/-- The magnitude of a finite number as a quotient. -/
def ratio (mantissa : Nat) (exponent : Int) : Nat × Nat :=
  if 0 ≤ exponent then (mantissa * Nat.pow 2 exponent.toNat, 1)
  else (mantissa, Nat.pow 2 (-exponent).toNat)

/-! ## Arithmetic -/

def zero : Binary64 := .finite false 0 (-1074)

/-- The number nearest to `± k · 2 ^ e`. -/
def ofScaled (negative : Bool) (k : Nat) (e : Int) : Binary64 :=
  let (n, d) := ratio k e
  ofRatio negative n d

/-- The integer with a sign and a magnitude. -/
def signed (negative : Bool) (k : Nat) : Int :=
  if negative then -(k : Int) else k

/-- The product with an integer. Nothing of infinity is no number. -/
def times (p : Nat) : Binary64 → Binary64
  | .nan => .nan
  | .infinite negative => if p = 0 then .nan else .infinite negative
  | .finite negative m e => ofScaled negative (p * m) e

/-- The sum. A zero sum is positive unless both zeros are negative. -/
def add : Binary64 → Binary64 → Binary64
  | .nan, _ => .nan
  | _, .nan => .nan
  | .infinite s, .infinite s' => if s = s' then .infinite s else .nan
  | .infinite s, .finite _ _ _ => .infinite s
  | .finite _ _ _, .infinite s => .infinite s
  | .finite s m e, .finite s' m' e' =>
    let least := min e e'
    let k := signed s (m * Nat.pow 2 (e - least).toNat) + signed s' (m' * Nat.pow 2 (e' - least).toNat)
    ofScaled (if k = 0 then s && s' else decide (k < 0)) k.natAbs least

/-! ## Integers -/

/-- The integer part, toward zero; only finite numbers have one. -/
def truncate? : Binary64 → Option Int
  | .finite negative m e =>
    let (n, d) := ratio m e
    some (if negative then -((n / d : Nat) : Int) else ((n / d : Nat) : Int))
  | _ => none

/-- Both zeros are zero. -/
def isZero : Binary64 → Bool
  | .finite _ m _ => m == 0
  | _ => false

/-- Whether a number equals an integer in value. -/
def equalsInt (x : Binary64) (k : Int) : Bool :=
  match x with
  | .finite negative m e =>
    let (n, d) := ratio m e
    (if negative then -(n : Int) else (n : Int)) == k * (d : Int)
  | _ => false

end Binary64

end Recall
