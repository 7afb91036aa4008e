import VoiceRelay.Query.EventStream

/-!
# Keeping the stream of server chat up

The loop that dials, runs a session, and dials again after a pause. A fault that only ends the
attempt leads to the next one; a fault in the greeting means that the other side is no query
interface, and ends the loop with that fault. The loop ends well when the hub takes no more messages
or at the signal to stop.

**Attempts.** What each attempt to open a stream gives, and how long it takes, is given from
outside. When no attempt is left the loop is still running.

**Trace.** One log, newest first, over the whole run: published states, opened streams, and what
crossed the wire on each.
-/

namespace VoiceRelay

/-- An attempt to open a stream: how long it takes and what it gives. -/
structure Attempt where
  delay : Nat
  outcome : Except Fault Peer

/-- How a run of the loop stands. -/
inductive Verdict
  | running
  | stopped
  | fatal (f : Fault)
  deriving DecidableEq, Repr

/-- What happened in a run, newest first: log entries, and streams that were opened. -/
inductive Trace
  | entry (e : Entry)
  | opened (time : Nat)
  deriving DecidableEq, Repr

/-- A run of the loop. -/
structure StreamRun where
  verdict : Verdict
  now : Nat
  dials : Nat
  intake : Intake
  trace : List Trace

namespace StreamRun

/-- Publishes a state in a run. -/
def publish (r : StreamRun) (s : StreamState) : StreamRun :=
  { r with trace := .entry (.published s) :: r.trace }

/-- The loop has come to its end. -/
def stop (r : StreamRun) (now : Nat) : StreamRun :=
  { r.publish .disconnected with verdict := .stopped, now := now }

/-- The last published state. -/
def state (r : StreamRun) : StreamState :=
  EventStream.lastState .disconnected (r.trace.filterMap fun
    | .entry e => some e
    | .opened _ => none)

end StreamRun

/-- An attempt that is over: what it came to, no result if the signal to stop came first; whether the
hub has closed its inbox; and the run so far. -/
structure AttemptEnd where
  result : Option (Except Fault Unit)
  inboxShut : Bool
  run : StreamRun

/-- What opening a stream gives within the time limit, and when. -/
def Attempt.within (a : Attempt) (s : StreamSettings) (now : Nat) : Except Fault Peer × Nat :=
  if s.dialLimit < a.delay then
    (.error (.timeLimit ("Verbindung zu " ++ s.credentials.target)), now + s.dialLimit)
  else (a.outcome, now + a.delay)

namespace EventStream

section Defs

/-- One attempt, from dialling to the end of the session; `closed` tells whether the hub has closed
its inbox. -/
def attempt (s : StreamSettings) (stopAt : Nat) (closed : Bool) (a : Attempt)
    (r : StreamRun) : AttemptEnd :=
  let r := { r.publish .handshaking with dials := r.dials + 1 }
  let (outcome, opened) := a.within s r.now
  if stopAt < opened then ⟨none, closed, { r with now := stopAt }⟩
  else
    match outcome with
    | .error f => ⟨some (.error f), closed, { r with now := opened }⟩
    | .ok peer =>
      let link := { Link.ofPeer peer with inboxShut := closed }
      let out := session s stopAt opened r.intake link
      ⟨out.result, out.link.inboxShut,
        { r with
          now := out.now
          intake := out.intake
          trace := out.link.log.map .entry ++ .opened opened :: r.trace }⟩

/-- Runs over the attempts until the loop ends or no attempt is left. An inbox that was closed stays
closed. -/
def runFrom (s : StreamSettings) (stopAt : Nat) (closed : Bool) :
    List Attempt → StreamRun → StreamRun
  | [], r => if stopAt ≤ r.now then r.stop r.now else r
  | a :: attempts, r =>
    if stopAt ≤ r.now then r.stop r.now
    else
      match attempt s stopAt closed a r with
      | ⟨none, _, r⟩ => r.stop stopAt
      | ⟨some (.ok ()), _, r⟩ => r.stop r.now
      | ⟨some (.error f), closed, r⟩ =>
        let r := r.publish .failed
        if f.isFatal then { r with verdict := .fatal f }
        else if stopAt < r.now + s.pause then r.stop stopAt
        else runFrom s stopAt closed attempts { r with now := r.now + s.pause }

/-- A run from the start. -/
def run (s : StreamSettings) (stopAt : Nat) (closed : Bool) (attempts : List Attempt) :
    StreamRun :=
  runFrom s stopAt closed attempts ⟨.running, 0, 0, ⟨[], []⟩, []⟩

end Defs

end EventStream
end VoiceRelay
