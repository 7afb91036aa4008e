import VoiceRelay.Json.Value
import VoiceRelay.Server.Program
import VoiceRelay.Server.Settings

/-!
# The times of clients

A program prints for each client a line with the seconds that it was there, a tab and its name. Only
so many lines are looked at, whatever is in them; a line without a tab, or whose first part is no
number, is passed over.

**Results.**

- `parse_take`: a smaller limit gives a part from the front of what a larger one gives.
-/

namespace VoiceRelay

/-- How long a client was there, in seconds. -/
structure ClientTime where
  total : Nat
  name : String
  deriving DecidableEq, Repr

namespace ClientTimes

section Defs

/-- A name without the return characters at its end. -/
def dropReturns (cs : List Char) : List Char := (cs.reverse.dropWhile (· == '\r')).reverse

/-- The entry of a line. -/
def ofLine? (line : List Char) : Option ClientTime :=
  (Text.splitOnce (· == '\t') line).bind fun p =>
    (Decimal.read? Decimal.bound64 (Text.trim p.1)).map fun n =>
      ⟨n, .ofList (dropReturns p.2)⟩

/-- The entries of a text, of which so many lines are looked at. -/
def parse (text : List Char) (limit : Nat) : List ClientTime :=
  ((Text.pieces (· == '\n') text).take limit).filterMap ofLine?

/-- Why there are no entries. -/
inductive Fault
  | notStarted (program : String)
  | overlong (program : String)
  deriving DecidableEq, Repr

/-- The text of a fault. -/
def Fault.message : Fault → String
  | notStarted program => "'" ++ program ++ "' konnte nicht gestartet werden"
  | overlong program => "'" ++ program ++ "' hat das Zeitlimit ueberschritten"

/-- The entries that a program gives; none if this is switched off. -/
def ask (s : TimesSettings) (run : String → List String → Program.Outcome) :
    Except Fault (List ClientTime) :=
  if s.enabled then
    match run s.program s.arguments with
    | .unknown => .error (.notStarted s.program)
    | .overlong => .error (.overlong s.program)
    | .finished output => .ok (parse (Utf8.decode output) s.limit)
  else .ok []

/-- An entry as a value. -/
def toValue (t : ClientTime) : Json.Value :=
  .object [("TotalTime", .number (.integer t.total)), ("ClientName", .text t.name)]

end Defs

section Laws

/-- A smaller limit gives a part from the front of what a larger one gives. -/
theorem parse_take (text : List Char) {m n : Nat} (h : m ≤ n) :
    parse text m <+: parse text n := by
  obtain ⟨k, rfl⟩ := Nat.exists_eq_add_of_le h
  unfold parse
  rw [List.take_add, List.filterMap_append]
  exact List.prefix_append _ _

end Laws

end ClientTimes
end VoiceRelay
