import VoiceRelay.Text.Decimal

/-!
# What can go wrong between the relay and the voice server

`Trouble` is what a stream reports when it cannot be opened, read or written; `Fault` is what an
exchange with the query interface ends in when it does not end well. Each has one message text. A
fault in the greeting means that the peer is no query interface at all and ends the process; every
other fault ends the attempt. A refusal by the server leaves the connection usable; after any
other fault it is given up.
-/

namespace VoiceRelay

/-- What a stream reports. -/
inductive Trouble
  | refused
  | reset
  | aborted
  | brokenPipe
  | timedOut
  | unexpectedEnd
  | other
  | unreachable
  | lineTooLong (length limit : Nat)
  | lineBreak
  deriving DecidableEq, Repr

/-- The text of a trouble. -/
def Trouble.message : Trouble → String
  | .refused => "connection refused"
  | .reset => "connection reset"
  | .aborted => "connection aborted"
  | .brokenPipe => "broken pipe"
  | .timedOut => "timed out"
  | .unexpectedEnd => "unexpected end of file"
  | .other => "other error"
  | .unreachable => "Network is unreachable (os error 101)"
  | .lineTooLong length limit =>
    "Zeile zu lang: " ++ .ofList (Decimal.digits length) ++ " Bytes ohne Trenner (Maximum: " ++
      .ofList (Decimal.digits limit) ++ " Bytes)"
  | .lineBreak => "Befehl enthaelt Zeilenumbruch"

/-- What ends an exchange that does not end well. -/
inductive Fault
  | stream (trouble : Trouble)
  | closed
  | timeLimit (waitingFor : String)
  | bannerMissing
  | bannerWrong (line : String)
  | greetingMissing
  | refusal (id : Nat) (message : String)
  | malformed (what : String)
  deriving DecidableEq, Repr

/-- What a fault puts an end to. -/
inductive Scope
  | attempt
  | process
  deriving DecidableEq, Repr

namespace Fault

/-- The text of a fault. -/
def message : Fault → String
  | stream trouble => "IO-Fehler: " ++ trouble.message
  | closed => "Verbindung vom Server geschlossen"
  | timeLimit waitingFor => "Zeitlimit ueberschritten: " ++ waitingFor
  | bannerMissing => "Keine Banner-Zeile empfangen"
  | bannerWrong line => "Unerwartetes Banner: '" ++ line ++ "' (erwartet 'TS3')"
  | greetingMissing => "Keine Begruessungszeile empfangen"
  | refusal id text => "Server-Fehler " ++ .ofList (Decimal.digits id) ++ ": " ++ text
  | malformed what => "Protokollfehler: " ++ what

/-- The text of a fault, and of the trouble that caused it. -/
def chain (f : Fault) : List String :=
  match f with
  | stream trouble => [f.message, trouble.message]
  | _ => [f.message]

/-- A fault in the greeting ends the process, every other one the attempt. -/
def scope : Fault → Scope
  | bannerMissing | bannerWrong _ | greetingMissing => .process
  | _ => .attempt

/-- Whether the fault ends the process. -/
def isFatal (f : Fault) : Bool := f.scope == .process

/-- Whether the connection is given up: after every fault but a refusal. -/
def losesLink : Fault → Bool
  | refusal _ _ => false
  | _ => true

end Fault
end VoiceRelay
