import VoiceRelay.Text.Decimal

/-!
# Calendar dates and time stamps

Seconds since 1970-01-01T00:00:00 as a date of the proleptic Gregorian calendar, a time of day and a
weekday, and the text of all three in universal time: `Thu Jan  1 00:00:00 +00:00 1970`. The day is
padded with a space; a year has at least four digits, a sign if it is negative, and a plus sign if
it has more than four digits.

**Design.** The date is computed within the 400-year cycle that begins on 1 March of a year
divisible by 400: there every month but the last has its place by the rule of 153 days in five
months, and leap days come last. `dayNumber` counts the days the other way, so the two can be
compared.
-/

namespace VoiceRelay
namespace Calendar

section Defs

/-- A date. -/
structure Date where
  year : Int
  month : Nat
  day : Nat
  deriving DecidableEq, Repr

/-- A date, a time of day and a weekday counted from Sunday. -/
structure Moment where
  date : Date
  hour : Nat
  minute : Nat
  second : Nat
  weekday : Nat
  deriving DecidableEq, Repr

/-- The days of 400 years. -/
def cycle : Nat := 146097

/-- The days from the start of the cycle that holds 1 March of the year 0 to 1970-01-01. -/
def epochOffset : Int := 719468

/-- Whether a year has a 29 February. -/
def isLeap (year : Int) : Bool := year % 4 == 0 && (year % 100 != 0 || year % 400 == 0)

/-- The days of a month. -/
def daysInMonth (year : Int) (month : Nat) : Nat :=
  if month = 2 then (if isLeap year then 29 else 28)
  else if month = 4 ∨ month = 6 ∨ month = 9 ∨ month = 11 then 30
  else 31

/-- The year within a cycle, counted from March, that holds a day of the cycle. -/
def yearOfCycle (day : Nat) : Nat := (day - day / 1460 + day / 36524 - day / 146096) / 365

/-- The date of a day counted from 1970-01-01. -/
def dateOfDay (day : Int) : Date :=
  let z := day + epochOffset
  let era := z / cycle
  let inCycle := (z % cycle).toNat
  let y := yearOfCycle inCycle
  let inYear := inCycle - (365 * y + y / 4 - y / 100)
  let m := (5 * inYear + 2) / 153
  let d := inYear - (153 * m + 2) / 5 + 1
  let month := if m < 10 then m + 3 else m - 9
  let year := Int.ofNat y + era * 400 + (if month ≤ 2 then 1 else 0)
  ⟨year, month, d⟩

/-- The day of a date, counted from 1970-01-01. -/
def dayNumber (date : Date) : Int :=
  let y := if date.month ≤ 2 then date.year - 1 else date.year
  let era := y / 400
  let inCycle := y % 400
  let m := if date.month ≤ 2 then date.month + 9 else date.month - 3
  let inYear : Int := Int.ofNat ((153 * m + 2) / 5 + date.day - 1)
  era * cycle + (inCycle * 365 + inCycle / 4 - inCycle / 100 + inYear) - epochOffset

/-- Date, time of day and weekday of a second. -/
def momentOf (second : Int) : Moment :=
  let day := second / 86400
  let inDay := (second % 86400).toNat
  { date := dateOfDay day
    hour := inDay / 3600
    minute := inDay % 3600 / 60
    second := inDay % 60
    weekday := ((day + 4) % 7).toNat }

/-- The second of a date and time of day. -/
def secondOf (m : Moment) : Int :=
  dayNumber m.date * 86400 + Int.ofNat (m.hour * 3600 + m.minute * 60 + m.second)

/-- The short names of the weekdays, from Sunday. -/
def weekdayNames : List String := ["Sun", "Mon", "Tue", "Wed", "Thu", "Fri", "Sat"]

/-- The short names of the months. -/
def monthNames : List String :=
  ["Jan", "Feb", "Mar", "Apr", "May", "Jun", "Jul", "Aug", "Sep", "Oct", "Nov", "Dec"]

/-- The text of a day of the month. -/
def dayText (day : Nat) : List Char :=
  if day < 10 then ' ' :: Decimal.digits day else Decimal.digits day

/-- The text of a year. -/
def yearText (year : Int) : List Char :=
  if year < 0 then '-' :: Decimal.padded 4 year.natAbs
  else if 9999 < year then '+' :: Decimal.padded 4 year.natAbs
  else Decimal.padded 4 year.natAbs

/-- The text of a moment. -/
def Moment.chars (m : Moment) : List Char :=
  (weekdayNames.getD m.weekday "").toList ++ ' ' ::
  (monthNames.getD (m.date.month - 1) "").toList ++ ' ' ::
  dayText m.date.day ++ ' ' ::
  Decimal.padded 2 m.hour ++ ':' :: Decimal.padded 2 m.minute ++ ':' ::
  Decimal.padded 2 m.second ++ " +00:00 ".toList ++ yearText m.date.year

/-- The text of a second. -/
def stamp (second : Int) : String := .ofList (momentOf second).chars

end Defs

end Calendar
end VoiceRelay
