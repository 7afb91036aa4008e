import VoiceRelay.Journal.Calendar
import VoiceRelay.Text.Blank

/-!
# Dates in headers

A header gives a moment in one of three forms, all in universal time:

- `Sun, 06 Nov 1994 08:49:37 GMT`,
- `Sunday, 06-Nov-94 08:49:37 GMT`, where a year below 70 belongs to the century after 2000,
- `Sun Nov  6 08:49:37 1994`.

A date that does not exist, or is not on the weekday that is named, is none.
-/

namespace VoiceRelay
namespace Http
namespace Date

section Parts

/-- A number of exactly so many digits. -/
def number? (digits : Nat) (cs : List Char) : Option Nat :=
  if cs.length = digits ∧ cs.all Decimal.isDigit then some (Decimal.value cs) else none

/-- The place of a name in a list of names. -/
def placeOf (names : List String) (cs : List Char) : Option Nat :=
  names.findIdx? fun n => n.toList == cs

/-- The long names of the weekdays, from Sunday. -/
def weekdays : List String :=
  ["Sunday", "Monday", "Tuesday", "Wednesday", "Thursday", "Friday", "Saturday"]

/-- A month by its short name. -/
def month? (cs : List Char) : Option Nat := (placeOf Calendar.monthNames cs).map (· + 1)

/-- A weekday by a name before a comma. -/
def weekday? (names : List String) (cs : List Char) : Option Nat :=
  if cs.getLast? = some ',' then placeOf names cs.dropLast else none

/-- Hours, minutes and seconds between colons. -/
def clock? (cs : List Char) : Option (Nat × Nat × Nat) :=
  match Text.pieces (· == ':') cs with
  | [h, m, s] => do return (← number? 2 h, ← number? 2 m, ← number? 2 s)
  | _ => none

/-- A year of two digits. -/
def century (n : Nat) : Nat := if n < 70 then 2000 + n else 1900 + n

end Parts

section Forms

/-- A moment of its parts. -/
def moment (weekday year month day : Nat) (clock : Nat × Nat × Nat) : Calendar.Moment :=
  ⟨⟨year, month, day⟩, clock.1, clock.2.1, clock.2.2, weekday⟩

/-- The first form, cut at its blanks. -/
def standard? : List (List Char) → Option Calendar.Moment
  | [w, d, m, y, t, ['G', 'M', 'T']] => do
    return moment (← weekday? Calendar.weekdayNames w) (← number? 4 y) (← month? m) (← number? 2 d)
      (← clock? t)
  | _ => none

/-- The second form, cut at its blanks. -/
def dashed? : List (List Char) → Option Calendar.Moment
  | [w, date, t, ['G', 'M', 'T']] =>
    match Text.pieces (· == '-') date with
    | [d, m, y] => do
      return moment (← weekday? weekdays w) (century (← number? 2 y)) (← month? m) (← number? 2 d)
        (← clock? t)
    | _ => none
  | _ => none

/-- The third form, cut at its blanks; a day below ten is filled up with a blank. -/
def spaced? : List (List Char) → Option Calendar.Moment
  | [w, m, [], d, t, y] => do
    return moment (← placeOf Calendar.weekdayNames w) (← number? 4 y) (← month? m) (← number? 1 d)
      (← clock? t)
  | [w, m, d, t, y] => do
    return moment (← placeOf Calendar.weekdayNames w) (← number? 4 y) (← month? m) (← number? 2 d)
      (← clock? t)
  | _ => none

/-- Whether there is such a moment, from 1970 on. -/
def isReal (m : Calendar.Moment) : Bool :=
  1970 ≤ m.date.year && Calendar.momentOf (Calendar.secondOf m) == m

/-- The second that a header gives. -/
def second? (text : String) : Option Int :=
  let ps := Text.pieces (· == ' ') (Text.trim text.toList)
  match ((standard? ps).or (dashed? ps)).or (spaced? ps) with
  | some m => if isReal m then some (Calendar.secondOf m) else none
  | none => none

end Forms

end Date
end Http
end VoiceRelay
