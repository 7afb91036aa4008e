import VoiceRelay.Text.Decimal

/-!
# Binary64 numbers and their decimals

A finite positive number is `m · 2^q`. The decimals that round to it form an interval around it,
ends included when `m` is even; of the decimals in the interval one with the fewest digits is
written, and of these the one nearest to the number. All arithmetic is in natural numbers.

**Reading.** A decimal is a fraction of natural numbers; scaled by the power of two that gives it 53
binary digits, or by the least power there is, its nearest integer (the even one of two) is the
significand.

**Notation.** `positional` writes every number without an exponent: an integer without a point, and
as many zeros as the magnitude asks for.
-/

namespace VoiceRelay
namespace Binary64

section Defs

/-- A finite positive number `m · 2^q`, and whether the numbers below it lie closer. -/
structure Magnitude where
  m : Nat
  q : Int
  tight : Bool
  deriving DecidableEq, Repr

/-- A decimal `digits · 10^exponent`. -/
structure Scaled where
  digits : Nat
  exponent : Int
  deriving DecidableEq, Repr

/-- The bit that a number below zero has in addition. -/
def signBit : Nat := 0x8000000000000000

/-- What the fraction of a number stays below. -/
def fractionBound : Nat := 0x10000000000000

/-- The parts of a number's 64 bits: sign, biased exponent, fraction. -/
def parts (bits : Nat) : Bool × Nat × Nat :=
  (decide (signBit ≤ bits), bits / fractionBound % 0x800, bits % fractionBound)

/-- The magnitude of a finite number that is not zero. -/
def magnitude (biased fraction : Nat) : Magnitude :=
  if biased = 0 then ⟨fraction, -1074, false⟩
  else ⟨fractionBound + fraction, Int.ofNat biased - 1075, fraction = 0 && 1 < biased⟩

/-- The number and its interval as numerators over one denominator. -/
structure Interval where
  low : Nat
  value : Nat
  high : Nat
  unit : Nat
  closed : Bool
  deriving Repr

/-- The interval of the decimals that round to a number. -/
def Magnitude.interval (x : Magnitude) : Interval :=
  let scale := x.q - 2
  let up := if 0 ≤ scale then 1 <<< scale.toNat else 1
  let unit := if 0 ≤ scale then 1 else 1 <<< (-scale).toNat
  { low := (4 * x.m - (if x.tight then 1 else 2)) * up
    value := 4 * x.m * up
    high := (4 * x.m + 2) * up
    unit := unit
    closed := x.m % 2 == 0 }

/-- Whether `c` steps of a grid lie in the interval; all numbers over one denominator. -/
def Interval.holds (i : Interval) (step c : Nat) : Bool :=
  if i.closed then i.low ≤ c * step && c * step ≤ i.high
  else i.low < c * step && c * step < i.high

/-- The same interval measured on the grid of `10^e`: numerators scaled, and the step. -/
def Interval.onGrid (i : Interval) (e : Int) : Interval × Nat :=
  if 0 ≤ e then (i, Decimal.tenTo e.toNat * i.unit)
  else
    let s := Decimal.tenTo (-e).toNat
    ({ i with low := i.low * s, value := i.value * s, high := i.high * s }, i.unit)

/-- The point of the grid of `10^e` in the interval that lies nearest to the number. -/
def Interval.nearest? (i : Interval) (e : Int) : Option Nat :=
  let (j, step) := i.onGrid e
  let c := j.value / step
  let below := j.holds step c
  let above := j.holds step (c + 1)
  let r := j.value - c * step
  if below && above then some (if 2 * r ≤ step then c else c + 1)
  else if below then some c
  else if above then some (c + 1)
  else none

/-- How many decimal digits stand before the point, not positive for numbers below 1. -/
def Interval.magnitude (i : Interval) : Int :=
  if i.unit ≤ i.value then Int.ofNat (Decimal.digits (i.value / i.unit)).length
  else below i 400 0
where
  /-- Counts the zeros after the point. -/
  below (i : Interval) : Nat → Nat → Int
    | 0, zeros => -(Int.ofNat zeros)
    | n + 1, zeros =>
      if i.unit ≤ i.value * Decimal.tenTo (zeros + 1) then -(Int.ofNat zeros)
      else below i n (zeros + 1)

/-- The first grid with a point in the interval, from one digit on. -/
def Interval.search (i : Interval) (places : Int) : Nat → Nat → Scaled
  | 0, n => ⟨(i.nearest? (places - Int.ofNat n)).getD 0, places - Int.ofNat n⟩
  | fuel + 1, n =>
    match i.nearest? (places - Int.ofNat n) with
    | some c => ⟨c, places - Int.ofNat n⟩
    | none => i.search places fuel (n + 1)

/-- The decimal with the fewest digits that rounds to a number. -/
def Magnitude.shortest (x : Magnitude) : Scaled :=
  let i := x.interval
  i.search i.magnitude 17 1

/-- A positive decimal without an exponent. -/
def Scaled.positional (s : Scaled) : List Char :=
  let ds := Decimal.digits s.digits
  if 0 ≤ s.exponent then ds ++ List.replicate s.exponent.toNat '0'
  else
    let places := (-s.exponent).toNat
    let padded := List.replicate (places + 1 - ds.length) '0' ++ ds
    let whole := padded.take (padded.length - places)
    let fraction := padded.drop (padded.length - places)
    let kept := (fraction.reverse.dropWhile (· == '0')).reverse
    if kept.isEmpty then whole else whole ++ '.' :: kept

/-- The text of a number given by its 64 bits, without an exponent. -/
def positional (bits : Nat) : List Char :=
  let (negative, biased, fraction) := parts bits
  let sign := if negative then ['-'] else []
  if biased = 2047 then
    if fraction = 0 then sign ++ "inf".toList else "NaN".toList
  else if biased = 0 ∧ fraction = 0 then sign ++ ['0']
  else sign ++ (magnitude biased fraction).shortest.positional

/-- The text of a floating-point number, without an exponent. -/
def text (x : Float) : List Char := positional x.toBits.toNat

/-- The integer nearest to a fraction, the even one of two. -/
def nearest (n d : Nat) : Nat :=
  let q := n / d
  let r := n % d
  if d < 2 * r ∨ (d = 2 * r ∧ q % 2 = 1) then q + 1 else q

/-- The bits of the infinite number and of one that is none. -/
def infinity : Nat := 0x7ff0000000000000
def notNumber : Nat := 0x7ff8000000000000

/-- The bits of the number nearest to a positive fraction. -/
def ofFraction (n d : Nat) : Nat :=
  let guess : Int := Int.ofNat (Nat.log2 n) - Int.ofNat (Nat.log2 d) - 52
  let small := n <<< (-52 - guess).toNat < d <<< (52 + guess).toNat
  let q := max (if small then guess - 1 else guess) (-1074)
  let m := nearest (n <<< (-q).toNat) (d <<< q.toNat)
  let bits := if m < fractionBound then m else (q + 1074).toNat * fractionBound + m
  min bits infinity

/-- The bits of the number nearest to `significand · 10^exponent`. Far from the range there is
nothing to compute. -/
def ofDecimal (significand : Nat) (exponent : Int) : Nat :=
  let places := Int.ofNat (Decimal.digits significand).length + exponent
  if significand = 0 ∨ places < -400 then 0
  else if 400 < places then infinity
  else
    ofFraction (significand * Decimal.tenTo exponent.toNat) (Decimal.tenTo (-exponent).toNat)

/-- Digits at the front, and what follows them. -/
def digitsOf (cs : List Char) : List Char × List Char :=
  (cs.takeWhile Decimal.isDigit, cs.dropWhile Decimal.isDigit)

/-- The exponent that a text spells; none at all is zero. -/
def exponent? : List Char → Option Int
  | [] => some 0
  | c :: r =>
    let (negative, ds) := match r with
      | '-' :: r => (true, r)
      | '+' :: r => (false, r)
      | r => (false, r)
    if (c = 'e' ∨ c = 'E') ∧ ds ≠ [] ∧ ds.all Decimal.isDigit then
      some (if negative then -Int.ofNat (Decimal.value ds) else Int.ofNat (Decimal.value ds))
    else none

/-- The bits of the number that a text without a sign spells. -/
def unsigned? (cs : List Char) : Option Nat :=
  match String.ofList (cs.map Char.toLower) with
  | "inf" | "infinity" => some infinity
  | "nan" => some notNumber
  | _ =>
    let (whole, r) := digitsOf cs
    let (fraction, r) := match r with
      | '.' :: r => digitsOf r
      | r => ([], r)
    if whole.isEmpty && fraction.isEmpty then none
    else
      (exponent? r).map fun e =>
        ofDecimal (Decimal.value (whole ++ fraction)) (e - Int.ofNat fraction.length)

/-- The bits of the number that a text spells. -/
def read? : List Char → Option Nat
  | '-' :: r => (unsigned? r).map (signBit + ·)
  | '+' :: r => unsigned? r
  | r => unsigned? r

end Defs

end Binary64
end VoiceRelay
