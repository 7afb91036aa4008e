import VoiceRelay.Server.Settings

/-!
# The parts that keep running

The parts that go on for as long as the relay runs, each with what it gets of the settings: the hub, the
shared command connection with its signs of life, the poller of rosters, and the event stream. The command
connection and the event stream open streams to the voice server, and every part waits for something again
and again.

**Results.**

- `parts_roster_isSome`: the poller runs whenever the roster is switched on.
-/

namespace VoiceRelay

/-- The poller of rosters: the time between two polls, in milliseconds, and the channels that it leaves
out. -/
structure RosterPart where
  interval : Nat
  hidden : List Nat
  deriving DecidableEq, Repr

/-- What keeps running: how long the hub lets a subscriber take, the account of the command connection and
the time between two signs of life on it, the poller, and the event stream. -/
structure Parts where
  sendLimit : Nat
  commands : Option Credentials
  beat : Option Nat
  roster : Option RosterPart
  events : Option StreamSettings
  deriving DecidableEq, Repr

/-- What is waited for again and again: a subscriber, the next sign of life, the next poll, a line of the
event stream, and the next attempt to open it. -/
inductive Wait
  | send
  | beat
  | poll
  | keepalive
  | reconnect
  deriving DecidableEq, Repr

namespace Parts

/-- The accounts with which streams to the voice server are opened. -/
def called (p : Parts) : List Credentials :=
  p.commands.toList ++ (p.events.map StreamSettings.credentials).toList

/-- How long a wait lasts, in milliseconds, if there is a part that waits. -/
def lasts (p : Parts) : Wait → Option Nat
  | .send => some p.sendLimit
  | .beat => p.beat
  | .poll => p.roster.map RosterPart.interval
  | .keepalive => p.events.map StreamSettings.keepalive
  | .reconnect => p.events.map StreamSettings.pause

end Parts

namespace Settings

/-- What the settings start. The poller and the signs of life need the command connection. -/
def parts (s : Settings) : Parts :=
  let commands := if s.needsCommands then some s.credentials else none
  { sendLimit := s.web.sendLimit
    commands
    beat := commands.bind fun _ => s.commandBeat
    roster :=
      if s.roster.enabled then commands.map fun _ => ⟨s.roster.interval * 1000, s.roster.hidden⟩
      else none
    events := if s.messages.enabled then some s.stream else none }

/-- The poller runs whenever the roster is switched on: the connection that it needs is there then. -/
theorem parts_roster_isSome (s : Settings) : s.parts.roster.isSome = s.roster.enabled := by
  cases h : s.roster.enabled <;> simp [parts, needsCommands, h]

end Settings

end VoiceRelay
