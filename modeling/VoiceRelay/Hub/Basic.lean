import VoiceRelay.Chat.Envelope
import VoiceRelay.Chat.SubscriberId

/-!
# The hub

The hub owns the set of subscribers and sends every event to all of them. It takes control commands
and three kinds of values from four bounded queues. Each value is written once as JSON text and
handed to every subscriber at the same time; a subscriber that refuses it, or does not take it
within the time limit, is removed and closed, and the others are not affected.

**Sinks.** What a sink does with the n-th text handed to it is given by a function, so a theorem may
speak of every behaviour. A sink may also never finish closing; then the hub waits for ever, which
`stuck` records.

**Senders.** A handle sends to all four queues. Beside the handles there may be senders of one queue
each, which outlive them. A queue is deserted once no handle and no sender of its own is left; it can
be deserted while it still holds values, and while others are not.

**Picking.** When several queues hold something, the hub may take from any of them. `Hub.step` is
one turn for a given choice; a run is a list of choices and of what happens around the hub.

**Ending.** The signal, or the last queue that is shut, puts an end to the loop. Then those who are left
in the set are closed one after the other, a turn for each, while the queues still take what is put into
them; nobody reads it any more. The hub has ended when nobody is left.

**History.** What the hub did, newest first. Each registration gets a number of its own, since the
same subscriber id may be registered again.
-/

namespace VoiceRelay

/-- What becomes of a text handed to a sink. -/
inductive Fate
  | accepts (after : Nat)
  | refuses (after : Nat)
  | stalls
  deriving DecidableEq, Repr

/-- The writing side of a subscriber: the fate of the n-th text, and whether closing ever ends. -/
structure Sink where
  fate : Nat → Fate
  closes : Bool

/-- Why a subscriber is removed, or a call to the hub is refused. -/
inductive HubFault
  | send (why : String)
  | timeLimit
  | ended
  deriving DecidableEq, Repr

/-- The text of a fault. -/
def HubFault.message : HubFault → String
  | send why => "Senden an Subscriber fehlgeschlagen: " ++ why
  | timeLimit => "Sende-Zeitlimit ueberschritten"
  | ended => "Hub beendet"

/-- A subscriber in the set. -/
structure Subscriber where
  id : SubscriberId
  serial : Nat
  sink : Sink
  attempts : Nat

/-- A control command. -/
inductive Control
  | register (id : SubscriberId) (sink : Sink)
  | unregister (id : SubscriberId)
  | count

/-- What the hub did. -/
inductive Deed
  | registered (serial : Nat) (id : SubscriberId)
  | handed (serial : Nat) (text : String) (accepted : Bool)
  | closed (serial : Nat)
  | dispatched (envelope : Envelope)
  | counted (size : Nat)
  deriving DecidableEq, Repr

/-- The numbers that the hub keeps for the metrics. -/
structure HubCounts where
  active : Nat
  failures : Nat
  delivered : Header → Nat
  broadcasts : Nat

/-- What a turn may be taken on: the four queues, the signal to stop, and, when the loop is over, those
who are left in the set. -/
inductive Branch
  | control
  | chat
  | roster
  | server
  | signal
  | farewell
  deriving DecidableEq, Repr

/-- The hub between two turns; `sendersGone` tells that no handle is left, and `loose` lists the
senders of one queue that were handed out. The loop may be over some turns before the hub has
`ended`. -/
structure Hub where
  timeLimit : Nat
  subscribers : List Subscriber
  control : List Control
  chats : List ChatMessage
  rosters : List (List Room)
  lines : List String
  sendersGone : Bool
  loose : List Branch
  openBranches : List Branch
  signalled : Bool
  loopOver : Bool
  ended : Bool
  stuck : Bool
  serials : Nat
  counts : Option HubCounts
  history : List Deed

namespace Hub

section Setup

/-- The time a subscriber may take by default. -/
def defaultTimeLimit : Nat := 5000

/-- How many entries a queue holds. -/
def capacity : Nat := 64

/-- The four queues. -/
def queues : List Branch := [.control, .chat, .roster, .server]

/-- The counts before anything happened. -/
def noCounts : HubCounts := ⟨0, 0, fun _ => 0, 0⟩

/-- A hub without subscribers; it counts if it is asked to. -/
def fresh (timeLimit : Nat) (counting : Bool) : Hub :=
  { timeLimit, subscribers := [], control := [], chats := [], rosters := [], lines := []
    sendersGone := false, loose := [], openBranches := queues, signalled := false, loopOver := false
    ended := false, stuck := false, serials := 0
    counts := if counting then some noCounts else none, history := [] }

/-- Notes a deed. -/
def note (h : Hub) (d : Deed) : Hub := { h with history := d :: h.history }

/-- Changes the counts, if the hub counts. -/
def count (h : Hub) (f : HubCounts → HubCounts) : Hub := { h with counts := h.counts.map f }

/-- Sets the number of active subscribers to the size of the set. -/
def countActive (h : Hub) : Hub :=
  h.count fun c => { c with active := h.subscribers.length }

end Setup

section Subscribers

/-- Closes the sink of a subscriber; the hub is stuck if that never ends. -/
def close (h : Hub) (s : Subscriber) : Hub :=
  { h.note (.closed s.serial) with stuck := h.stuck || !s.sink.closes }

/-- Takes a sink into the set; one of the same id is replaced and closed. -/
def register (h : Hub) (id : SubscriberId) (sink : Sink) : Hub :=
  let s : Subscriber := ⟨id, h.serials, sink, 0⟩
  let old := h.subscribers.find? (fun t => t.id == id)
  let others := h.subscribers.filter (fun t => !(t.id == id))
  let h := { h with subscribers := others ++ [s], serials := h.serials + 1 }.note
    (.registered s.serial id)
  match old with
  | none => h.countActive
  | some t =>
    let h := h.close t
    if h.stuck then h else h.countActive

/-- Takes a subscriber out of the set and closes it; an unknown id is no fault. -/
def remove (h : Hub) (id : SubscriberId) : Hub :=
  match h.subscribers.find? (fun t => t.id == id) with
  | none => h
  | some t =>
    let h := { h with subscribers := h.subscribers.filter (fun t => !(t.id == id)) }.close t
    if h.stuck then h else h.countActive

/-- Removes several subscribers one after the other; a hub that is stuck removes no more. -/
def removeAll (h : Hub) : List SubscriberId → Hub
  | [] => h
  | id :: ids => if h.stuck then h else (h.remove id).removeAll ids

end Subscribers

section Broadcasts

/-- Whether a text is taken within a time limit. -/
def inTime (limit : Nat) : Fate → Bool
  | .accepts after => decide (after ≤ limit)
  | _ => false

/-- Whether a subscriber takes the text handed to it now. -/
def takes (limit : Nat) (s : Subscriber) : Bool := inTime limit (s.sink.fate s.attempts)

/-- Hands a text to every subscriber. -/
def handAll (h : Hub) (text : String) : Hub :=
  { h with
    subscribers := h.subscribers.map fun s => { s with attempts := s.attempts + 1 }
    history :=
      (h.subscribers.map fun s => Deed.handed s.serial text (takes h.timeLimit s)).reverse ++
        h.history }

/-- Sends an envelope to all subscribers; those who do not take it are removed. The second part is
the number of those removed. -/
def broadcast (h : Hub) (e : Envelope) : Hub × Nat :=
  let failed := (h.subscribers.filter fun s => !takes h.timeLimit s).map (·.id)
  let accepted := h.subscribers.length - failed.length
  let h := ((h.note (.dispatched e)).handAll e.toJson).removeAll failed
  let h := if h.stuck then h else h.count fun c =>
    { c with
      delivered := fun k => if k = e.header then c.delivered k + accepted else c.delivered k
      failures := c.failures + failed.length
      broadcasts := c.broadcasts + 1 }
  (h, failed.length)

end Broadcasts

section Loop

/-- Obeys a control command. -/
def obey (h : Hub) : Control → Hub
  | .register id sink => h.register id sink
  | .unregister id => h.remove id
  | .count => h.note (.counted h.subscribers.length)

/-- The end of the loop: no queue is read any more. -/
def quit (h : Hub) : Hub := { h with loopOver := true }

/-- The end of the hub: nobody is active, and what stands in the queues is lost. -/
def finish (h : Hub) : Hub :=
  { h.count (fun c => { c with active := 0 }) with
    ended := true, control := [], chats := [], rosters := [], lines := [] }

/-- A turn after the loop: one of those who are left is closed, or nobody is left and the hub ends. -/
def farewell (h : Hub) : Hub :=
  match h.subscribers with
  | [] => h.finish
  | s :: rest => { h with subscribers := rest }.close s

/-- Whether a queue is empty. -/
def isEmpty (h : Hub) : Branch → Bool
  | .control => h.control.isEmpty
  | .chat => h.chats.isEmpty
  | .roster => h.rosters.isEmpty
  | .server => h.lines.isEmpty
  | .signal | .farewell => true

/-- Whether nothing will be put into a queue any more. -/
def deserted (h : Hub) (b : Branch) : Bool := h.sendersGone && !h.loose.contains b

/-- Whether the hub can take a turn on a branch. -/
def ready (h : Hub) (b : Branch) : Bool :=
  !h.ended && !h.stuck &&
    (if b = .farewell then h.loopOver
     else !h.loopOver &&
      (if b = .signal then h.signalled
       else h.openBranches.contains b && (!h.isEmpty b || h.deserted b)))

/-- A queue from which nothing will come any more; the last one ends the loop. -/
def shut (h : Hub) (b : Branch) : Hub :=
  let h := { h with openBranches := h.openBranches.filter (fun c => c != b) }
  if h.openBranches.isEmpty then h.quit else h

/-- One turn on a branch that is ready; any other choice changes nothing. -/
def step (h : Hub) (b : Branch) : Hub :=
  if h.ready b then
    match b with
    | .signal => h.quit
    | .farewell => h.farewell
    | .control =>
      match h.control with
      | [] => h.shut b
      | c :: rest => { h with control := rest }.obey c
    | .chat =>
      match h.chats with
      | [] => h.shut b
      | m :: rest => ({ h with chats := rest }.broadcast (.chat m)).1
    | .roster =>
      match h.rosters with
      | [] => h.shut b
      | r :: rest => ({ h with rosters := rest }.broadcast (.roster r)).1
    | .server =>
      match h.lines with
      | [] => h.shut b
      | t :: rest => ({ h with lines := rest }.broadcast (.server t)).1
  else h

end Loop

section Callers

/-- What is put into a queue. -/
inductive Item
  | control (c : Control)
  | chat (m : ChatMessage)
  | roster (rooms : List Room)
  | server (text : String)

/-- The queue of an item. -/
def Item.branch : Item → Branch
  | .control _ => .control
  | .chat _ => .chat
  | .roster _ => .roster
  | .server _ => .server

/-- How many entries stand in the queue of a branch. -/
def queued (h : Hub) : Branch → Nat
  | .control => h.control.length
  | .chat => h.chats.length
  | .roster => h.rosters.length
  | .server => h.lines.length
  | .signal | .farewell => 0

/-- Whether an item has to wait for room in its queue. -/
def isFull (h : Hub) (i : Item) : Bool := capacity ≤ h.queued i.branch

/-- Puts an item into its queue. -/
def push (h : Hub) : Item → Hub
  | .control c => { h with control := h.control ++ [c] }
  | .chat m => { h with chats := h.chats ++ [m] }
  | .roster r => { h with rosters := h.rosters ++ [r] }
  | .server t => { h with lines := h.lines ++ [t] }

/-- Offers an item: refused once the hub has ended, accepted if there is room, else the caller
waits and nothing changes. -/
def offer (h : Hub) (i : Item) : Except HubFault Bool × Hub :=
  if h.ended then (.error .ended, h)
  else if h.isFull i then (.ok false, h)
  else (.ok true, h.push i)

/-- Hands out a sender of one queue, as long as someone can send to it. -/
def lend (h : Hub) (b : Branch) : Hub :=
  if h.deserted b then h else { h with loose := b :: h.loose }

/-- A sender of one queue is given up. -/
def release (h : Hub) (b : Branch) : Hub := { h with loose := h.loose.erase b }

/-- The choice that is made when nothing else decides: those who are left, the signal, then control,
then values. -/
def nextBranch (h : Hub) : Option Branch := (Branch.farewell :: .signal :: queues).find? h.ready

/-- Takes turns until none is left to take, at most so many. -/
def settle : Nat → Hub → Hub
  | 0, h => h
  | n + 1, h =>
    match h.nextBranch with
    | none => h
    | some b => settle n (h.step b)

/-- The turns that are enough to empty all queues and to end. A control command may put one more
subscriber into the set. -/
def backlog (h : Hub) : Nat :=
  2 * h.control.length + h.chats.length + h.rosters.length + h.lines.length +
    h.subscribers.length + h.openBranches.length + (!h.loopOver).toNat + (!h.ended).toNat

/-- Takes turns until none is left to take. -/
def rest (h : Hub) : Hub := settle h.backlog h

end Callers

section Views

/-- The texts that a registration accepted, oldest first. -/
def acceptedBy (serial : Nat) (history : List Deed) : List String :=
  history.reverse.filterMap fun
    | .handed n text true => if n = serial then some text else none
    | _ => none

/-- How often a registration was closed. -/
def closings (serial : Nat) (history : List Deed) : Nat :=
  history.countP fun
    | .closed n => n == serial
    | _ => false

/-- The envelopes dispatched, oldest first. -/
def dispatchedIn (history : List Deed) : List Envelope :=
  history.reverse.filterMap fun
    | .dispatched e => some e
    | _ => none

end Views

end Hub
end VoiceRelay
