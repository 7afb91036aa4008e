import VoiceRelay.Text.Decimal

/-!
# JSON numbers

A number without fraction and exponent that fits 64 bits is kept as an integer; any other is kept
as the decimal that was written: sign, significant digits and power of ten. Minus zero is such a
decimal, since no integer is.

**Range.** A decimal is in range if it stays finite when it is computed the usual way in binary64:
at most 64 bits of leading digits, rounded to 53 bits, times the rounded power of ten. Reading for
a value refuses numbers out of range; skipping does not look.
-/

namespace VoiceRelay
namespace Json

/-- A number as it was written. -/
inductive Number
  | integer (n : Int)
  | decimal (negative : Bool) (significand : Nat) (exponent : Int)
  deriving DecidableEq, Repr

/-- The parts of a numeral: integer digits, fraction digits, exponent, and whether it has a
fraction or an exponent at all. -/
structure Numeral where
  negative : Bool
  whole : List Char
  fraction : Option (List Char)
  exponent : Option Int
  deriving DecidableEq, Repr

namespace Binary64

/-- The nearest natural number with at most 53 significant bits, ties to the even one. -/
def round (n : Nat) : Nat :=
  let bits := if n = 0 then 0 else Nat.log2 n + 1
  if bits ≤ 53 then n
  else
    let unit := 1 <<< (bits - 53)
    let q := n / unit
    let r := n % unit
    let up := unit < 2 * r || (unit == 2 * r && q % 2 == 1)
    (if up then q + 1 else q) * unit

/-- The first number that is no longer finite. -/
def overflow : Nat := 1 <<< 1024

/-- The greatest power of ten that is finite. -/
def greatestPower : Int := 308

/-- Whether `significand * 10 ^ exponent`, computed with rounded factors, stays finite. -/
def finite (significand : Nat) (exponent : Int) : Bool :=
  if significand = 0 ∨ exponent < 0 then true
  else if greatestPower < exponent then false
  else round (round significand * round (Decimal.tenTo exponent.toNat)) < overflow

end Binary64

namespace Numeral

/-- Takes digits into a significand as long as it stays below 2⁶⁴; the second part counts the
digits that no longer went in. -/
def takeDigits (start : Nat) (ds : List Char) : Nat × Nat :=
  ds.foldl
    (fun (s, left) d =>
      let s' := s * 10 + Decimal.digitValue d
      if left = 0 ∧ s' < Decimal.bound64 then (s', 0) else (s, left + 1))
    (start, 0)

/-- Whether the numeral denotes a number in range. -/
def inRange (n : Numeral) : Bool :=
  let (s, left) := takeDigits 0 n.whole
  let fraction := n.fraction.getD []
  let (s', left') := takeDigits s fraction
  let taken : Int := Int.ofNat (fraction.length - left')
  Binary64.finite s' (Int.ofNat left - taken + n.exponent.getD 0)

/-- The number that a numeral denotes. -/
def number (n : Numeral) : Number :=
  let all := n.whole ++ n.fraction.getD []
  let s := Decimal.value all
  let decimal := Number.decimal n.negative s
    (n.exponent.getD 0 - Int.ofNat (n.fraction.getD []).length)
  if n.fraction.isSome ∨ n.exponent.isSome then decimal
  else if n.negative then
    if 0 < s ∧ s ≤ 0x8000000000000000 then .integer (-(Int.ofNat s)) else decimal
  else if s < Decimal.bound64 then .integer (Int.ofNat s) else decimal

end Numeral

namespace Number

/-- The text of an integer. -/
def integerText : Int → List Char
  | .ofNat n => Decimal.digits n
  | .negSucc n => '-' :: Decimal.digits (n + 1)

/-- The text of a number. -/
def text : Number → List Char
  | integer n => integerText n
  | decimal negative s e =>
    (if negative then ['-'] else []) ++ Decimal.digits s ++ 'e' :: integerText e

end Number
end Json
end VoiceRelay
