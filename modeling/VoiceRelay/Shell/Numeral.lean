import VoiceRelay.Json.Event
import VoiceRelay.Shell.Octet
import VoiceRelay.Text.Blank
import VoiceRelay.Text.Decimal

/-!
# Numerals of programs

How programs read numbers from their arguments: as much of the front as makes a numeral, after
blanks and a sign. `0x` begins a hexadecimal numeral and `0` an octal one. What does not fit into 64
bits is the nearest number that does.
-/

namespace VoiceRelay
namespace Shell
namespace Numeral

section Defs

/-- Whether a character is a space for a program. -/
def isSpace (c : Char) : Bool := c == ' ' || ('\t' ≤ c && c ≤ '\r')

/-- Whether a character is an octal digit. -/
def isOctal (c : Char) : Bool := '0' ≤ c && c ≤ '7'

/-- Whether a character is a hexadecimal digit. -/
def isHex (c : Char) : Bool := (Json.hexValue? c).isSome

/-- The number that digits of a base stand for. -/
def valueOf (base : Nat) (ds : List Char) : Nat :=
  ds.foldl (fun n d => n * base + (Json.hexValue? d).getD 0) 0

/-- A sign, and what follows it. -/
def sign : List Char → Bool × List Char
  | '-' :: cs => (true, cs)
  | '+' :: cs => (false, cs)
  | cs => (false, cs)

/-- The number at the front of a text, if one is there, and what follows it. -/
def magnitude (cs : List Char) : Option Nat × List Char :=
  match cs with
  | '0' :: x :: h :: r =>
    if (x == 'x' || x == 'X') && isHex h then
      (some (valueOf 16 ((h :: r).takeWhile isHex)), (h :: r).dropWhile isHex)
    else (some (valueOf 8 (cs.takeWhile isOctal)), cs.dropWhile isOctal)
  | '0' :: _ => (some (valueOf 8 (cs.takeWhile isOctal)), cs.dropWhile isOctal)
  | _ =>
    let ds := cs.takeWhile Decimal.isDigit
    (if ds.isEmpty then none else some (Decimal.value ds), cs.dropWhile Decimal.isDigit)

/-- A number with its sign, and what follows it; a text without a number is all left. -/
def integer (cs : List Char) : Int × List Char :=
  let (negative, front) := sign (cs.dropWhile isSpace)
  match magnitude front with
  | (some n, rest) => (if negative then -Int.ofNat n else Int.ofNat n, rest)
  | (none, _) => (0, cs)

/-- The number of a text within the range of numbers with a sign. -/
def signed (cs : List Char) : Int :=
  max (-0x8000000000000000) (min 0x7fffffffffffffff (integer cs).1)

/-- The number of a text within the range of numbers without a sign; below zero it wraps. -/
def unsigned (cs : List Char) : Nat :=
  let n := (integer cs).1
  if Decimal.bound64 ≤ n.natAbs then Decimal.bound64 - 1 else (n % Int.ofNat Decimal.bound64).toNat

end Defs

section Real

/-- A number that need not be whole. -/
inductive Real
  | fraction (n d : Nat)
  | infinite
  | undefined
  deriving DecidableEq, Repr

/-- How far from the point a number may begin. -/
def reach : Nat := 5000

/-- Some digits with an exponent of ten. -/
def shifted (ds : List Char) (exponent : Int) : Real :=
  let n := Decimal.value ds
  if n = 0 then .fraction 0 1
  else if Int.ofNat reach < exponent + Int.ofNat ds.length then .infinite
  else if exponent + Int.ofNat ds.length < -Int.ofNat reach then .fraction 0 1
  else if 0 ≤ exponent then .fraction (n * Decimal.tenTo exponent.natAbs) 1
  else .fraction n (Decimal.tenTo exponent.natAbs)

/-- The exponent at the front of a text. -/
def exponent : List Char → Int
  | e :: cs =>
    let (negative, front) := sign cs
    let n := Int.ofNat (Decimal.value (front.takeWhile Decimal.isDigit))
    if e == 'e' || e == 'E' then if negative then -n else n else 0
  | [] => 0

/-- The number at the front of a text, and whether it is negative. -/
def real (cs : List Char) : Bool × Real :=
  let (negative, front) := sign (cs.dropWhile isSpace)
  let low := front.map Char.toLower
  let whole := front.takeWhile Decimal.isDigit
  let rest := front.dropWhile Decimal.isDigit
  let places := if rest.head? = some '.' then rest.tail.takeWhile Decimal.isDigit else []
  let after := if rest.head? = some '.' then rest.tail.dropWhile Decimal.isDigit else rest
  let number :=
    if (Text.dropLead? "inf".toList low).isSome then .infinite
    else if (Text.dropLead? "nan".toList low).isSome then .undefined
    else if (Text.dropLead? "0x".toList low).isSome then
      .fraction ((magnitude front).1.getD 0) 1
    else shifted (whole ++ places) (exponent after - Int.ofNat places.length)
  (negative, number)

end Real

end Numeral
end Shell
end VoiceRelay
