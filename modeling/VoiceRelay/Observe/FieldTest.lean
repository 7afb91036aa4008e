import VoiceRelay.Observe.Pattern
import VoiceRelay.Text.Binary64

/-!
# Tests for the fields of events

A test asks for a field by its name and may ask for its value: a truth value, a number, or a text
that matches a pattern. What is written is taken for the first of these that it can be, so numbers
that are written differently may be the same test.
-/

namespace VoiceRelay

/-- The value that a test asks for. -/
inductive FieldValue
  | flag (b : Bool)
  | natural (n : Nat)
  | integer (n : Int)
  | decimal (bits : Nat)
  | notNumber
  | pattern (cs : List Char)
  deriving DecidableEq, Repr

/-- A test for a field. -/
structure FieldTest where
  name : List Char
  value : Option FieldValue
  deriving DecidableEq, Repr

namespace FieldValue

section Defs

/-- What an integer of 64 bits stays below. -/
def integerBound : Nat := 0x8000000000000000

/-- The integer of 64 bits that a text spells. -/
def integer? : List Char → Option Int
  | '-' :: r =>
    if r ≠ [] ∧ r.all Decimal.isDigit ∧ Decimal.value r ≤ integerBound then
      some (-Int.ofNat (Decimal.value r))
    else none
  | r => (Decimal.read? integerBound r).map Int.ofNat

/-- The finite or infinite number that some bits stand for. -/
def ofBits (bits : Nat) : FieldValue :=
  if Binary64.infinity < bits % Binary64.signBit then notNumber else decimal bits

/-- The number that a text spells. -/
def number? (cs : List Char) : Option FieldValue :=
  ((Decimal.read? Decimal.bound64 cs).map natural).or
    (((integer? cs).map integer).or ((Binary64.read? cs).map ofBits))

/-- The value that a text stands for. -/
def read? (cs : List Char) : Option FieldValue :=
  if cs = "true".toList then some (flag true)
  else if cs = "false".toList then some (flag false)
  else (number? cs).or (if Pattern.isPattern cs then some (pattern cs) else none)

/-- Whether two values are the same test; the two zeros are. -/
def same : FieldValue → FieldValue → Bool
  | decimal a, decimal b => a == b || (a % Binary64.signBit == 0 && b % Binary64.signBit == 0)
  | a, b => a == b

/-- The text of a value. -/
def text : FieldValue → List Char
  | flag b => (toString b).toList
  | natural n => Decimal.digits n
  | integer n => Json.Number.integerText n
  | decimal bits => Binary64.positional bits
  | notNumber => Binary64.positional Binary64.notNumber
  | pattern cs => cs

end Defs

end FieldValue

namespace FieldTest

section Defs

/-- Reads a test; what follows a second sign of equality is not looked at. -/
def read? (cs : List Char) : Option FieldTest :=
  match Text.pieces (· == '=') cs with
  | name :: value :: _ => (FieldValue.read? value).map fun v => ⟨name, some v⟩
  | _ => some ⟨cs, none⟩

/-- Whether two tests are the same. -/
def same (a b : FieldTest) : Bool :=
  a.name == b.name &&
    match a.value, b.value with
    | some v, some w => v.same w
    | none, none => true
    | _, _ => false

/-- The text of a test. -/
def text (t : FieldTest) : List Char :=
  match t.value with
  | some v => t.name ++ '=' :: v.text
  | none => t.name

end Defs

end FieldTest
end VoiceRelay
