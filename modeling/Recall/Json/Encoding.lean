/-
Recall.Json.Encoding — bytes as text.

Stored bytes are UTF-8, UTF-16 or UTF-32. A byte order mark decides which; without one the places
of the zero bytes among the first four do, since JSON begins with an ASCII character. In stored
data half of a surrogate pair is let through; a file that is read as plain UTF-8 may not hold one.
-/
import Recall.Json.Reader

namespace Recall

namespace Encoding

/-! ## 1. UTF-8 -/

/-- The six payload bits of a continuation byte. -/
def tail? (b : UInt8) : Option Nat :=
  if 0x80 ≤ b ∧ b ≤ 0xBF then some (b.toNat - 0x80) else none

/-- The code point that UTF-8 wrote in the bytes of its class: neither too small for them nor beyond
the last one. -/
def symbol? (least n : Nat) : Option Symbol :=
  if n < least ∨ 0x10FFFF < n then none else some (.ofCode n)

/-- The code points that UTF-8 bytes encode. -/
def utf8? : List UInt8 → Option (List Symbol)
  | [] => some []
  | a :: r =>
    if a < 0x80 then do
      return .char (Char.ofNat a.toNat) :: (← utf8? r)
    else if 0xC0 ≤ a ∧ a < 0xE0 then
      match r with
      | b :: r => do
        let c ← symbol? 0x80 ((a.toNat - 0xC0) * 64 + (← tail? b))
        return c :: (← utf8? r)
      | _ => none
    else if 0xE0 ≤ a ∧ a < 0xF0 then
      match r with
      | b :: c :: r => do
        let s ← symbol? 0x800 (((a.toNat - 0xE0) * 64 + (← tail? b)) * 64 + (← tail? c))
        return s :: (← utf8? r)
      | _ => none
    else if 0xF0 ≤ a ∧ a < 0xF8 then
      match r with
      | b :: c :: d :: r => do
        let s ← symbol? 0x10000
          ((((a.toNat - 0xF0) * 64 + (← tail? b)) * 64 + (← tail? c)) * 64 + (← tail? d))
        return s :: (← utf8? r)
      | _ => none
    else none

/-- The text that plain UTF-8 bytes encode. -/
def plainUtf8? (bs : List UInt8) : Option (List Char) :=
  (utf8? bs).bind Symbol.chars?

/-! ## 2. UTF-16 and UTF-32 -/

/-- Which byte of a code unit comes first. -/
inductive Order where
  | little
  | big
  deriving DecidableEq

/-- The code unit of two bytes. -/
def unit16 (order : Order) (a b : UInt8) : Nat :=
  match order with
  | .little => b.toNat * 256 + a.toNat
  | .big => a.toNat * 256 + b.toNat

/-- The code units of a byte sequence of even length. -/
def units16? (order : Order) : List UInt8 → Option (List Nat)
  | [] => some []
  | a :: b :: r => do return unit16 order a b :: (← units16? order r)
  | [_] => none

/-- The code points of a sequence of code units. -/
def ofUnits : List Nat → List Symbol
  | [] => []
  | [n] => [.ofCode n]
  | n :: m :: r =>
    if Json.isHighSurrogate n && Json.isLowSurrogate m then
      .char (Json.ofSurrogates n m) :: ofUnits r
    else .ofCode n :: ofUnits (m :: r)

/-- The code points that UTF-16 bytes encode. -/
def utf16? (order : Order) (bs : List UInt8) : Option (List Symbol) :=
  (units16? order bs).map ofUnits

/-- The code points that UTF-32 bytes encode. -/
def utf32? (order : Order) : List UInt8 → Option (List Symbol)
  | [] => some []
  | a :: b :: c :: d :: r => do
    let n := match order with
      | .little => unit16 .little c d * 65536 + unit16 .little a b
      | .big => unit16 .big a b * 65536 + unit16 .big c d
    let s ← symbol? 0 n
    return s :: (← utf32? order r)
  | _ => none

/-! ## 3. Detection -/

/-- The text of stored bytes without a byte order mark. -/
def decodeUnmarked? (bs : List UInt8) : Option (List Symbol) :=
  match bs with
  | a :: b :: c :: d :: _ =>
    if a = 0 then if b = 0 then utf32? .big bs else utf16? .big bs
    else if b = 0 then if c = 0 ∧ d = 0 then utf32? .little bs else utf16? .little bs
    else utf8? bs
  | [a, b] =>
    if a = 0 then utf16? .big bs else if b = 0 then utf16? .little bs else utf8? bs
  | _ => utf8? bs

/-- The text of stored bytes. The mark of UTF-16 is the beginning of one of UTF-32. -/
def decode? (bs : List UInt8) : Option (List Symbol) :=
  if [0x00, 0x00, 0xFE, 0xFF].isPrefixOf bs then utf32? .big (bs.drop 4)
  else if [0xFF, 0xFE, 0x00, 0x00].isPrefixOf bs then utf32? .little (bs.drop 4)
  else if [0xFE, 0xFF].isPrefixOf bs then utf16? .big (bs.drop 2)
  else if [0xFF, 0xFE].isPrefixOf bs then utf16? .little (bs.drop 2)
  else if [0xEF, 0xBB, 0xBF].isPrefixOf bs then utf8? (bs.drop 3)
  else decodeUnmarked? bs

end Encoding

end Recall
