import VoiceRelay.Observe.Health
import VoiceRelay.Query.EventStream

/-!
# Watching the event stream

The event stream publishes its states into a slot that holds the latest one and a version, and an
observer sets a flag of the health report by them. The observer wakes when there is a version that
it has not seen, reads the latest state, which may be newer still, and sets the flag; it ends when
all is seen and the slot was closed.

**Design.** Publishing, closing, waking, reading and setting are moves of their own, so that a run may
put them in any order. Between reading and setting the observer holds what it has read, and the slot
may go on without it. A move that is not possible changes nothing.

**Results.**

- `run_append`: a run can be cut anywhere.
-/

namespace VoiceRelay

/-- What the observer is about to do: wait for a version that it has not seen, read the slot, set the
flag by what it has read, or nothing any more. -/
inductive Observer
  | waiting
  | woken
  | holding (connected : Bool)
  | ended
  deriving DecidableEq, Repr

/-- The slot and its observer. States are kept newest first. -/
structure Watching where
  published : List StreamState
  closed : Bool
  seen : Nat
  observer : Observer
  health : Health
  deriving DecidableEq, Repr

namespace Watching

/-- What can happen next. -/
inductive Move
  | publish (s : StreamState)
  | close
  | wake
  | read
  | set
  deriving DecidableEq, Repr

section Defs

/-- The slot when the event stream starts: the flag goes down before anything is published. -/
def start (h : Health) : Watching :=
  ⟨[], false, 0, .waiting, { h with eventStream := false }⟩

/-- The version of the slot. -/
def version (w : Watching) : Nat := w.published.length

/-- The states that were in the slot, newest first; a new slot holds `disconnected`. -/
def states (w : Watching) : List StreamState := w.published ++ [.disconnected]

/-- The state in the slot. -/
def latest (w : Watching) : StreamState := w.published.headD .disconnected

/-- What a move does. -/
def step (w : Watching) : Move → Watching
  | .publish s => if w.closed then w else { w with published := s :: w.published }
  | .close => { w with closed := true }
  | .wake =>
    match w.observer with
    | .waiting =>
      if w.seen < w.version then { w with observer := .woken, seen := w.version }
      else if w.closed then { w with observer := .ended }
      else w
    | _ => w
  | .read =>
    match w.observer with
    | .woken => { w with observer := .holding w.latest.isConnected, seen := w.version }
    | _ => w
  | .set =>
    match w.observer with
    | .holding connected =>
      { w with observer := .waiting, health := { w.health with eventStream := connected } }
    | _ => w

/-- Several moves. -/
def run (w : Watching) (ms : List Move) : Watching := ms.foldl step w

/-- Whether the observer has seen all and done what it had to do. -/
def caughtUp (w : Watching) : Bool :=
  w.seen == w.version && (w.observer == .waiting || w.observer == .ended)

/-- A run can be cut anywhere. -/
theorem run_append (w : Watching) (a b : List Move) : w.run (a ++ b) = (w.run a).run b := by
  simp [run]

end Defs

end Watching
end VoiceRelay
