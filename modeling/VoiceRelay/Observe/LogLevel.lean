import VoiceRelay.Text.Decimal

/-!
# Levels and formats of the log

A level says how much is logged; each level includes those before it. The configuration names a
level exactly as it is written here, while a filter also takes numbers, any case, and `off`.
-/

namespace VoiceRelay

/-- How much is logged. -/
inductive LogLevel
  | off
  | error
  | warn
  | info
  | debug
  | trace
  deriving DecidableEq, Repr

/-- How a line of the log is written. -/
inductive LogFormat
  | text
  | json
  deriving DecidableEq, Repr

namespace LogLevel

/-- All levels, from the least to the most. -/
def all : List LogLevel := [off, error, warn, info, debug, trace]

/-- The name of a level. -/
def name : LogLevel → String
  | off => "off"
  | error => "error"
  | warn => "warn"
  | info => "info"
  | debug => "debug"
  | trace => "trace"

/-- The place of a level in the order. -/
def rank : LogLevel → Nat
  | off => 0
  | error => 1
  | warn => 2
  | info => 3
  | debug => 4
  | trace => 5

/-- Whether a configuration may ask for a level of this name. -/
def isKnown (s : String) : Bool := (all.tail.map name).contains s

/-- The level of a filter: a number, a name in any case, or nothing for errors only. -/
def read? (cs : List Char) : Option LogLevel :=
  match Decimal.read? Decimal.bound64 cs with
  | some n => all[n]?
  | none =>
    if cs.isEmpty then some error
    else all.find? fun l => l.name.toList == cs.map Char.toLower

end LogLevel

namespace LogFormat

/-- The name of a format. -/
def name : LogFormat → String
  | text => "text"
  | json => "json"

/-- The format of a name. -/
def ofName? (s : String) : Option LogFormat := [text, json].find? fun f => f.name == s

end LogFormat
end VoiceRelay
