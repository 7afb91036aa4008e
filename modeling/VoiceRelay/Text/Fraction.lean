import VoiceRelay.Text.Decimal

/-!
# Fractions in decimal

A number that is not negative, as a numerator over a denominator, and its text with so many places
after the point, with a power of ten, or in the shorter of both ways. What does not come out even is
rounded to the nearest, and a half to the even neighbour.
-/

namespace VoiceRelay
namespace Fraction

section Rounding

/-- A quotient, rounded to the nearest; a half goes to the even neighbour. -/
def roundDiv (n d : Nat) : Nat :=
  let q := n / d
  let r := n % d
  if 2 * r < d ∨ (2 * r = d ∧ q % 2 = 0) then q else q + 1

/-- The greatest power of two that is not above a fraction, as its exponent. -/
def binaryExponent (n d : Nat) : Int :=
  let k := Int.ofNat (Nat.log2 n) - Int.ofNat (Nat.log2 d)
  let below := if k < 0 then n <<< k.natAbs < d else n < d <<< k.natAbs
  if below then k - 1 else k

/-- A fraction, rounded to so many binary digits. -/
def rounded (bits : Nat) (n d : Nat) : Nat × Nat :=
  if n = 0 then (0, 1)
  else
    let shift := Int.ofNat bits - 1 - binaryExponent n d
    if 0 ≤ shift then (roundDiv (n <<< shift.natAbs) d, 1 <<< shift.natAbs)
    else (roundDiv n (d <<< shift.natAbs) <<< shift.natAbs, 1)

end Rounding

section Printing

/-- The digits with a point before the last few of them. -/
def pointed (places : Nat) (q : Nat) : List Char :=
  let ds := Decimal.padded (places + 1) q
  let whole := ds.length - places
  if places = 0 then ds else ds.take whole ++ '.' :: ds.drop whole

/-- The text of a fraction with so many places. -/
def fixed (places n d : Nat) : List Char := pointed places (roundDiv (n * Decimal.tenTo places) d)

/-- A text with a point at its end, unless it has one. -/
def withPoint (cs : List Char) : List Char := if cs.contains '.' then cs else cs ++ ['.']

/-- How often a fraction below one can be multiplied by ten before it reaches one. -/
def leadingPlaces (n d : Nat) : Nat → Nat
  | 0 => 0
  | turns + 1 => if d ≤ n then 0 else leadingPlaces (n * 10) d turns + 1

/-- The greatest power of ten that is not above a fraction, as its exponent. -/
def decimalExponent (n d : Nat) : Int :=
  if n = 0 then 0
  else if d ≤ n then Int.ofNat (Decimal.digits (n / d)).length - 1
  else -Int.ofNat (leadingPlaces n d (Nat.log2 d + 1))

/-- A fraction as a number with one more digit than `places`, and the exponent of the first. -/
def scaled (places n d : Nat) : Nat × Int :=
  let e := decimalExponent n d
  let shift := Int.ofNat places - e
  let q := if 0 ≤ shift then roundDiv (n * Decimal.tenTo shift.natAbs) d
    else roundDiv n (d * Decimal.tenTo shift.natAbs)
  if q = Decimal.tenTo (places + 1) then (q / 10, e + 1) else (q, e)

/-- The text of an exponent, with at least two digits. -/
def exponentText (e : Int) : List Char :=
  'e' :: (if e < 0 then '-' else '+') :: Decimal.padded 2 e.natAbs

/-- The text of a fraction with a power of ten; `finish` is applied to the digits before it. -/
def scientific (finish : List Char → List Char) (places n d : Nat) : List Char :=
  let (q, e) := scaled places n d
  finish (pointed places q) ++ exponentText e

/-- A text without the zeros at its end, if it has a point. -/
def trimZeros (cs : List Char) : List Char :=
  if cs.contains '.' then
    let rest := cs.reverse.dropWhile (· == '0')
    ((if rest.head? = some '.' then rest.tail else rest)).reverse
  else cs

/-- The text of a fraction with so many digits that count, in the shorter way; `finish` is applied
to the digits before a power of ten. -/
def general (finish : List Char → List Char) (digits n d : Nat) : List Char :=
  let digits := max digits 1
  let e := (scaled (digits - 1) n d).2
  if -4 ≤ e ∧ e < Int.ofNat digits then finish (fixed (Int.ofNat digits - 1 - e).natAbs n d)
  else scientific finish (digits - 1) n d

end Printing

end Fraction
end VoiceRelay
