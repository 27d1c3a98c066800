/-
Recall.Number.Shortest — the shortest decimal text of a binary64 number.

Among the decimals that read back as the number those with the fewest digits are taken, and of
these the one nearest to it. For each digit count only the two neighbours of the number on that
decimal grid are tried: if any decimal of the grid reads back, one of the two does.
-/
import Recall.Number.Binary64

namespace Recall

namespace Binary64

/-- The decimal exponent of `num / den`: the greatest `e` with `10 ^ e ≤ num / den`. -/
def decimalExponent (num den : Nat) : Int :=
  if den ≤ num then ((Nat.toDigits 10 (num / den)).length : Int) - 1
  else
    let j := (Nat.toDigits 10 (den / num)).length
    if den ≤ num * Nat.pow 10 (j - 1) then -((j - 1 : Nat) : Int) else -(j : Int)

/-- The two neighbours of `num / den` among the multiples of `10 ^ e`, the nearer one first; of two
equally near the even multiple. -/
def neighbours (num den : Nat) (e : Int) : List Nat :=
  let (n, d) := if 0 ≤ e then (num, den * Nat.pow 10 e.toNat)
    else (num * Nat.pow 10 (-e).toNat, den)
  let low := n / d
  let near := roundDiv n d
  if near = low then [low, low + 1] else [low + 1, low]

/-- Digits and exponent of the shortest decimal that reads back as `m · 2 ^ e`, tried from `count`
digits on; `left` is the number of counts that remain. -/
def shortestFrom (m : Nat) (e : Int) (top : Int) : Nat → Nat → Nat × Int
  | _, 0 =>
    let (n, d) := ratio m e
    (n / d, 0)
  | count, left + 1 =>
    let (n, d) := ratio m e
    let grid := top - (count : Int) + 1
    match (neighbours n d grid).find? fun k => ofDecimal false k grid == .finite false m e with
    | some k => (k, grid)
    | none => shortestFrom m e top (count + 1) left

/-- Drops the zeros at the end of a decimal's digits. -/
def dropZeros : Nat → Nat → Int → Nat × Int
  | 0, k, e => (k, e)
  | fuel + 1, k, e => if k ≠ 0 ∧ k % 10 = 0 then dropZeros fuel (k / 10) (e + 1) else (k, e)

/-- The shortest decimal `k · 10 ^ e` of a finite positive number; `k` does not end in zero. -/
def shortest (m : Nat) (e : Int) : Nat × Int :=
  let (n, d) := ratio m e
  let (k, x) := shortestFrom m e (decimalExponent n d) 1 17
  dropZeros 18 k x

/-- How the text of a number is laid out: the decimal exponents written without an exponent part,
and the least number of digits of that part. -/
structure Layout where
  least : Int
  greatest : Int
  exponentDigits : Nat

/-- Numbers from `10 ^ -4` up to `10 ^ 16` are positional; an exponent has two digits or more. -/
def layout : Layout := ⟨-4, 15, 2⟩

/-- The text of `digits · 10 ^ e`, which has at least one digit on both sides of its point when it
is positional. -/
def textOf (ly : Layout) (k : Nat) (e : Int) : List Char :=
  let ds := Nat.toDigits 10 k
  let top := e + (ds.length : Int) - 1
  if k = 0 then ['0', '.', '0']
  else if top < ly.least ∨ ly.greatest < top then
    let frac := ds.drop 1
    let xs := Nat.toDigits 10 top.natAbs
    ds.take 1 ++ (if frac.isEmpty then [] else '.' :: frac) ++
      ['e', if top < 0 then '-' else '+'] ++
      List.replicate (ly.exponentDigits - xs.length) '0' ++ xs
  else if 0 ≤ e then ds ++ List.replicate e.toNat '0' ++ ['.', '0']
  else if top < 0 then ['0', '.'] ++ List.replicate (-top - 1).toNat '0' ++ ds
  else ds.take (top + 1).toNat ++ '.' :: ds.drop (top + 1).toNat

/-- The shortest text that reads back as the number. -/
def text : Binary64 → String
  | .nan => "nan"
  | .infinite negative => if negative then "-inf" else "inf"
  | .finite negative m e =>
    let (k, x) := if m = 0 then (0, 0) else shortest m e
    String.ofList ((if negative then ['-'] else []) ++ textOf layout k x)

end Binary64

end Recall
