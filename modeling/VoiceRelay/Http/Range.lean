import VoiceRelay.Text.Blank
import VoiceRelay.Text.Decimal

/-!
# Ranges of octets

A request may ask for a part of a file: `bytes=2-5` from one octet to another, `bytes=2-` from an
octet to the end, `bytes=-5` for so many octets at the end. An end beyond the file is moved to its
last octet; a start beyond it cannot be met. Several ranges may be asked for at once, but they are
not served.

**Numbers** have digits only, and no zero in front.
-/

namespace VoiceRelay
namespace Http

/-- What a request asks for of a file: a part between two octets, several parts, or what cannot be
met. -/
inductive Share
  | part (first last : Nat)
  | several
  | unmet
  deriving DecidableEq, Repr

namespace Share

section Defs

/-- A number of a range. -/
def number? (cs : List Char) : Option Nat :=
  if cs.head? ≠ some '+' ∧ (cs.length = 1 ∨ cs.head? ≠ some '0') then
    Decimal.read? Decimal.bound64 cs
  else none

/-- The first and the last octet that a range asks for, in a file of some size. -/
def span? (size : Nat) (cs : List Char) : Option (Nat × Nat) :=
  match Text.pieces (· == '-') cs with
  | [first, last] =>
    if first.isEmpty then do
      let n ← number? last
      if n = 0 ∨ size < n then none else some (size - n, size - 1)
    else do
      let a ← number? first
      if last.isEmpty then some (a, size - 1) else do
        let b ← number? last
        some (a, min b (size - 1))
  | _ => none

/-- A range of a list; one blank may stand in front of it. -/
def unpadded? : List Char → Option (List Char)
  | ' ' :: cs => if cs.any Text.isBlank then none else some cs
  | cs => if cs.any Text.isBlank then none else some cs

/-- Whether two spans have an octet in common. -/
def overlap (a b : Nat × Nat) : Bool := a.1 ≤ b.2 && b.1 ≤ a.2

/-- Whether each of some spans begins before its end and has nothing in common with the others. -/
def apart : List (Nat × Nat) → Bool
  | [] => true
  | a :: l => a.1 ≤ a.2 && l.all (fun b => !overlap a b) && apart l

/-- What spans ask for. -/
def ofSpans (spans : List (Nat × Nat)) : Share :=
  if apart spans then
    match spans with
    | [a] => .part a.1 a.2
    | _ => .several
  else .unmet

/-- What the value of a header asks for, of a file of some size. -/
def ofHeader (size : Nat) (value : List Char) : Share :=
  match Text.dropLead? "bytes=".toList value with
  | some (c :: cs) =>
    let ranges := Text.pieces (· == ',') (c :: cs)
    match if Text.isBlank c then none else
        ranges.mapM fun r => (unpadded? r).bind (span? size) with
    | some spans => ofSpans spans
    | none => .unmet
  | _ => .unmet

/-- The octets of a part. -/
def cut (first last : Nat) (content : List UInt8) : List UInt8 :=
  (content.drop first).take (last + 1 - first)

end Defs

end Share

end Http
end VoiceRelay
