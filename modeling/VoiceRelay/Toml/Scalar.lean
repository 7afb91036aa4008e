import VoiceRelay.Json.Event
import VoiceRelay.Text.Blank
import VoiceRelay.Toml.Table

/-!
# Numbers, truth values and moments of TOML

Everything in a value that is neither quoted nor bracketed is a word: a truth value, an integer of
64 bits with a sign, a decimal, or a date, a time of day, or both.

**Digits.** Single underscores may stand between digits. A decimal integer has no leading zero; the
other bases have a lower-case mark and no sign.
-/

namespace VoiceRelay
namespace Toml

section Digits

/-- The digits of a group in which single underscores may separate them. -/
def plainDigits (isDigit : Char → Bool) (cs : List Char) : Option (List Char) :=
  let groups := Text.pieces (· == '_') cs
  if groups.all fun g => !g.isEmpty && g.all isDigit then some groups.flatten else none

/-- The digits of a decimal integer, without a leading zero. -/
def wholeDigits (cs : List Char) : Option (List Char) :=
  if cs.head? = some '0' ∧ cs ≠ ['0'] then none else plainDigits Decimal.isDigit cs

/-- A sign, if there is one, and the rest. -/
def signed : List Char → Bool × List Char
  | '-' :: cs => (true, cs)
  | '+' :: cs => (false, cs)
  | cs => (false, cs)

/-- The greatest integer. -/
def greatest : Int := 0x7fffffffffffffff

/-- The least integer. -/
def least : Int := -0x8000000000000000

/-- An integer in range. -/
def inRange (n : Int) : Option Value :=
  if least ≤ n ∧ n ≤ greatest then some (.integer n) else none

/-- Whether a character is a digit of a base. -/
def isDigitOf (base : Nat) (c : Char) : Bool :=
  match Json.hexValue? c with
  | some v => v < base
  | none => false

/-- An integer in another base. -/
def based (base : Nat) (cs : List Char) : Option Value := do
  let ds ← plainDigits (isDigitOf base) cs
  let n := ds.foldl (fun n d => n * base + (Json.hexValue? d).getD 0) 0
  inRange (Int.ofNat n)

/-- An integer. -/
def integer? : List Char → Option Value
  | '0' :: 'x' :: cs => based 16 cs
  | '0' :: 'o' :: cs => based 8 cs
  | '0' :: 'b' :: cs => based 2 cs
  | cs => do
    let (negative, cs) := signed cs
    let n := Int.ofNat (Decimal.value (← wholeDigits cs))
    inRange (if negative then -n else n)

end Digits

section Decimals

/-- The exponent of a decimal. -/
def exponent? (cs : List Char) : Option Int := do
  let (negative, cs) := signed cs
  let n := Int.ofNat (Decimal.value (← plainDigits Decimal.isDigit cs))
  return if negative then -n else n

/-- The two parts of a list around the first character with a property, if there is one. -/
def halves (p : Char → Bool) (cs : List Char) : List Char × Option (List Char) :=
  match Text.splitOnce p cs with
  | some (a, b) => (a, some b)
  | none => (cs, none)

/-- The first number that rounds beyond all finite ones. -/
def beyond : Nat := 1 <<< 1024 - 1 <<< 970

/-- Whether a decimal is finite; below zero everything is accepted. -/
def isBounded (negative : Bool) (significand : Nat) (exponent : Int) : Bool :=
  let size := exponent + (Decimal.digits significand).length
  negative || significand == 0 || size < 309 ||
    (size == 309 &&
      significand * Decimal.tenTo exponent.toNat < beyond * Decimal.tenTo (-exponent).toNat)

/-- A decimal: it has a fraction or an exponent, or is one of the special words. -/
def decimal? (cs : List Char) : Option Value := do
  let (negative, body) := signed cs
  if body = "inf".toList ∨ body = "nan".toList then return .decimal
  let (mantissa, power) := halves (fun c => c == 'e' || c == 'E') body
  let (whole, fraction) := halves (· == '.') mantissa
  if power.isNone && fraction.isNone then none
  let ds ← wholeDigits whole
  let fs ← match fraction with
    | some f => plainDigits Decimal.isDigit f
    | none => some []
  let e ← match power with
    | some p => exponent? p
    | none => some 0
  if isBounded negative (Decimal.value (ds ++ fs)) (e - fs.length) then return .decimal else none

end Decimals

section Moments

/-- A number of exactly so many digits within limits. -/
def field? (width low high : Nat) (cs : List Char) : Option Nat :=
  let n := Decimal.value cs
  if cs.length = width ∧ cs.all Decimal.isDigit ∧ low ≤ n ∧ n ≤ high then some n else none

/-- Whether a year has a 29 February. -/
def isLeap (year : Nat) : Bool := year % 4 == 0 && (year % 100 != 0 || year % 400 == 0)

/-- The length of a month. -/
def monthLength (year month : Nat) : Nat :=
  if month = 2 then (if isLeap year then 29 else 28)
  else if month = 4 ∨ month = 6 ∨ month = 9 ∨ month = 11 then 30
  else 31

/-- Whether a word is a date: `1979-05-27`. -/
def isDate (cs : List Char) : Bool :=
  match Text.pieces (· == '-') cs with
  | [y, m, d] =>
    match field? 4 0 9999 y, field? 2 1 12 m with
    | some y, some m => (field? 2 1 (monthLength y m) d).isSome
    | _, _ => false
  | _ => false

/-- Whether a word is a time of day: `07:32:00.5`. -/
def isTime (cs : List Char) : Bool :=
  match Text.pieces (· == ':') cs with
  | [h, m, s] =>
    let (s, fraction) := halves (· == '.') s
    (field? 2 0 23 h).isSome && (field? 2 0 59 m).isSome && (field? 2 0 60 s).isSome &&
      match fraction with
      | some f => !f.isEmpty && f.all Decimal.isDigit
      | none => true
  | _ => false

/-- Whether a word is a distance from universal time: `+01:00`. -/
def isOffset (cs : List Char) : Bool :=
  match Text.pieces (· == ':') cs with
  | [h, m] => (field? 2 0 23 h).isSome && (field? 2 0 59 m).isSome
  | _ => false

/-- Whether a word is a time of day with or without a distance from universal time. -/
def isZoned (cs : List Char) : Bool :=
  match cs.getLast? with
  | some 'Z' | some 'z' => isTime cs.dropLast
  | _ =>
    match Text.splitOnce (fun c => c == '+' || c == '-') cs with
    | some (time, offset) => isTime time && isOffset offset
    | none => isTime cs

/-- A date, a time of day, or a date and a time joined by `T`. -/
def moment? (cs : List Char) : Option Value :=
  if isDate cs ∨ isTime cs then some .moment
  else
    match Text.splitOnce (fun c => c == 'T' || c == 't') cs with
    | some (date, time) => if isDate date && isZoned time then some .moment else none
    | none => none

end Moments

section Words

/-- Whether a character can belong to a word. -/
def inWord (c : Char) : Bool :=
  c.isAlphanum || c == '_' || c == '+' || c == '-' || c == '.' || c == ':'

/-- The value of a word. -/
def word? (cs : List Char) : Option Value :=
  if cs = "true".toList then some (.bool true)
  else if cs = "false".toList then some (.bool false)
  else (moment? cs).or ((decimal? cs).or (integer? cs))

/-- Reads a word; after a date a time may follow a single space. -/
def readWord (cs : List Char) : Option (Value × List Char) :=
  let w := cs.takeWhile inWord
  let rest := cs.dropWhile inWord
  match rest with
  | ' ' :: more =>
    let time := more.takeWhile inWord
    if isDate w && isZoned time then some (.moment, more.dropWhile inWord)
    else (word? w).map (·, rest)
  | _ => (word? w).map (·, rest)

end Words

end Toml
end VoiceRelay
