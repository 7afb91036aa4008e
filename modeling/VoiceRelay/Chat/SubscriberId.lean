import VoiceRelay.Text.Blank
import VoiceRelay.Json.Event

/-!
# Subscriber ids

Every subscriber is known by a number of 128 bits, written as 32 hexadecimal digits in groups of
8, 4, 4, 4 and 12. Reading also accepts the digits without hyphens, the hyphenated form in braces,
and the hyphenated form after `urn:uuid:`; digits may be of either case.
-/

namespace VoiceRelay

/-- The number of a subscriber, below 2¹²⁸. -/
structure SubscriberId where
  value : Nat
  deriving DecidableEq, Repr, BEq, ReflBEq, LawfulBEq, Hashable

namespace SubscriberId

section Defs

/-- The lower-case hexadecimal digit of a number below 16. -/
def hexDigit (n : Nat) : Char := Char.ofNat (if n < 10 then '0'.toNat + n else 'a'.toNat + (n - 10))

/-- The last `width` hexadecimal digits of a number. -/
def hexDigits : (width n : Nat) → List Char
  | 0, _ => []
  | w + 1, n => hexDigits w (n / 16) ++ [hexDigit (n % 16)]

/-- Hyphens after the 8th, 12th, 16th and 20th digit. -/
def groups (ds : List Char) : List Char :=
  ds.take 8 ++ '-' :: ((ds.drop 8).take 4 ++ '-' :: ((ds.drop 12).take 4 ++ '-' ::
    ((ds.drop 16).take 4 ++ '-' :: ds.drop 20)))

/-- The hyphenated form. -/
def text (id : SubscriberId) : String := .ofList (groups (hexDigits 32 id.value))

/-- The form for logs. -/
def display (id : SubscriberId) : String := "subscriber:" ++ id.text

/-- The number that 32 hexadecimal digits denote. -/
def ofDigits (ds : List Char) : Option Nat :=
  if ds.length = 32 then
    ds.foldlM (fun n d => (Json.hexValue? d).map (n * 16 + ·)) 0
  else none

/-- The digits of a hyphenated form. -/
def ungroup (cs : List Char) : Option (List Char) :=
  let hyphenAt (n : Nat) : Bool := cs[n]? == some '-'
  if cs.length = 36 ∧ hyphenAt 8 ∧ hyphenAt 13 ∧ hyphenAt 18 ∧ hyphenAt 23 then
    some (cs.take 8 ++ (cs.drop 9).take 4 ++ (cs.drop 14).take 4 ++ (cs.drop 19).take 4 ++
      cs.drop 24)
  else none

/-- What stands before a hyphenated form in a uniform resource name, in any case. -/
def urnLead : List Char := "urn:uuid:".toList

/-- The hyphenated form inside one of its wrappings. -/
def unwrap (cs : List Char) : List Char :=
  if (cs.take urnLead.length).map Char.toLower = urnLead then cs.drop urnLead.length
  else
    match cs, cs.getLast? with
    | '\x7b' :: rest, some '\x7d' => rest.dropLast
    | _, _ => cs

/-- The id that a text spells. -/
def parse? (s : String) : Option SubscriberId :=
  let cs := s.toList
  let ds := if cs.length = 32 then some cs else ungroup (unwrap cs)
  (ds.bind ofDigits).map .mk

end Defs

end SubscriberId
end VoiceRelay
