import VoiceRelay.Query.Peer
import VoiceRelay.Query.Roster

/-!
# Polling the roster

At a fixed interval the poller asks for clients and channels and passes the roster on to the hub.
A poll that fails is counted and skipped. The poller ends when the hub takes no more rosters, which
it notices after any poll, or at the signal to stop, which it notices between two polls.

**Accounts.** A poll that got both lists counts as good, any other as bad, and the last poll decides
whether the query interface counts as connected.

**Time.** A poll lasts as long as its two questions do, and the pause after it has the length of the
interval. The hub may be closed and the signal may come at any moment, also during a poll. If the pause
is over at the moment at which the signal is noticed, either of the two may be first.
-/

namespace VoiceRelay

/-- What the two questions of one poll give, and how long it takes to ask them. -/
structure Poll where
  clients : Except Fault (List Occupant)
  channels : Except Fault (List Channel)
  length : Nat

/-- The accounts of a poller; rosters newest first. -/
structure PollAccount where
  rosters : List (List Room)
  good : Nat
  bad : Nat
  connected : Bool
  deriving DecidableEq, Repr

/-- What a poller is set to and what it meets: the answers of the `k`-th poll, from when on the hub takes
no more rosters, when the signal comes, and whether the signal is first if the pause after the `k`-th
poll is over at the same moment. -/
structure Polling where
  interval : Nat
  hidden : List Nat
  polls : Nat → Poll
  closedFrom : Deadline
  stopAt : Deadline
  signalFirst : Nat → Bool

namespace Poller

section Defs

/-- The accounts before the first poll. -/
def fresh : PollAccount := ⟨[], 0, 0, true⟩

/-- The roster of a poll; the question about clients comes first. -/
def roster (hidden : List Nat) (p : Poll) : Except Fault (List Room) := do
  let clients ← p.clients
  let channels ← p.channels
  return Roster.join clients channels hidden

/-- Enters a poll into the accounts; the second part says whether to go on. -/
def enter (hidden : List Nat) (hubOpen : Bool) (x : PollAccount) (p : Poll) :
    PollAccount × Bool :=
  match roster hidden p with
  | .ok rooms =>
    ({ rosters := if hubOpen then rooms :: x.rosters else x.rosters
       good := x.good + 1, bad := x.bad, connected := true }, hubOpen)
  | .error _ => ({ x with bad := x.bad + 1, connected := false }, hubOpen)

/-- Whether the hub takes rosters at a moment. -/
def takes (p : Polling) (now : Nat) : Bool :=
  match p.closedFrom with
  | none => true
  | some t => decide (now < t)

/-- Whether the signal ends the pause that begins at a moment, after the `k`-th poll. -/
def stops (p : Polling) (k now : Nat) : Bool :=
  match p.stopAt with
  | none => false
  | some t =>
    decide (max t now < now + p.interval) || (max t now == now + p.interval && p.signalFirst k)

/-- What ended a run. -/
inductive End
  | hubClosed
  | signal
  deriving DecidableEq, Repr

/-- At most `n` polls, of which the `k`-th begins now: the accounts after each of them, oldest first, and
what ended the run, if anything has. -/
def rounds (p : Polling) : (n k now : Nat) → PollAccount → List PollAccount × Option End
  | 0, _, _, _ => ([], none)
  | n + 1, k, now, x =>
    let done := now + (p.polls k).length
    let (x, goOn) := enter p.hidden (takes p done) x (p.polls k)
    if goOn = false then ([x], some .hubClosed)
    else if stops p k done then ([x], some .signal)
    else
      let rest := rounds p n (k + 1) (done + p.interval) x
      (x :: rest.1, rest.2)

/-- A run of at most `n` polls. -/
def run (p : Polling) (n : Nat) : List PollAccount × Option End := rounds p n 0 0 fresh

end Defs

end Poller
end VoiceRelay
