import VoiceRelay.Query.Credentials
import VoiceRelay.Query.Link
import VoiceRelay.Query.Roster

/-!
# The shared command connection

Poller and browsers share one connection to the query interface. It stands in a slot; a command
takes it out, or signs in on a fresh stream if the slot is empty, and puts it back unless the
exchange ended in a way that leaves it out of step. A caller that gives up in the middle leaves the
slot empty, too. So a reply that comes late is never read by a later command.

**Worlds.** What the next attempts to open a stream will give is part of the client: a list of
dials, and the fault of every dial after them.

**Log.** Connections that were given up are kept, newest first, for what was sent on them.
-/

namespace VoiceRelay

/-- What opening a stream gives. -/
abbrev Dial := Except Fault Peer

/-- The shared connection and the streams that can still be opened. -/
structure Client where
  credentials : Credentials
  dials : List Dial
  exhausted : Fault
  slot : Option Link
  past : List Link
  dialled : Nat

/-- What a caller asks of the query interface. -/
inductive Request
  | occupants
  | channels
  | say (text : String)
  | ping
  | quit
  deriving DecidableEq, Repr

/-- What a caller gets. -/
inductive Answer
  | occupants (list : List Occupant)
  | channels (list : List Channel)
  | done
  deriving DecidableEq, Repr

/-- What a call has come to; no result if the caller gave up. -/
structure Call (α : Type) where
  result : Option (Except Fault α)
  now : Nat
  client : Client

namespace Request

/-- The command of a request; a text without a word needs none. -/
def command : Request → Option String
  | occupants => some "clientlist"
  | channels => some "channellist"
  | say text => (Escape.encodeWords text).map ("gm msg=" ++ ·)
  | ping => some "whoami"
  | quit => some "quit"

/-- Whether the request has to wait for the connection. -/
def waits (r : Request) : Bool := r.command.isSome

/-- What the records of a reply mean. -/
def answer : Request → List Record → Except Fault Answer
  | occupants, rs => (Occupant.listOfRecords rs).map .occupants
  | channels, rs => (Channel.listOfRecords rs).map .channels
  | _, _ => .ok .done

end Request

namespace Client

section SigningIn

/-- A client that has no connection yet. -/
def fresh (credentials : Credentials) (dials : List Dial) (exhausted : Fault) : Client :=
  ⟨credentials, dials, exhausted, none, [], 0⟩

/-- Opens the next stream. -/
def dial (c : Client) : Except Fault Link × Client :=
  let c' := { c with dials := c.dials.tail, dialled := c.dialled + 1 }
  match c.dials with
  | [] => (.error c.exhausted, c')
  | .error f :: _ => (.error f, c')
  | .ok p :: _ => (.ok (.ofPeer p), c')

/-- Gives a connection up. -/
def giveUp (c : Client) (l : Link) : Client := { c with past := l :: c.past }

/-- Opens a stream, reads the greeting, logs in and picks the virtual server. -/
def signIn (c : Client) (patience : Deadline) (now : Nat) :
    Option (Except Fault Link) × Nat × Client :=
  match c.dial with
  | (.error f, c) => (some (.error f), now, c)
  | (.ok l, c) =>
    let greeted := l.greet patience now
    match greeted.result with
    | none => (none, greeted.now, c.giveUp greeted.link)
    | some (.error f) => (some (.error f), greeted.now, c.giveUp greeted.link)
    | some (.ok ()) =>
      let known := greeted.link.command Link.defaultTimeLimit patience greeted.now
        c.credentials.login
      match known.result with
      | none => (none, known.now, c.giveUp known.link)
      | some (.error f) => (some (.error f), known.now, c.giveUp known.link)
      | some (.ok _) =>
        let ready := known.link.command Link.defaultTimeLimit patience known.now
          c.credentials.use
        match ready.result with
        | none => (none, ready.now, c.giveUp ready.link)
        | some (.error f) => (some (.error f), ready.now, c.giveUp ready.link)
        | some (.ok _) => (some (.ok ready.link), ready.now, c)

/-- Signs in and puts the connection into the slot. -/
def connect (c : Client) (patience : Deadline) (now : Nat) : Call Unit :=
  match c.signIn patience now with
  | (none, now, c) => ⟨none, now, c⟩
  | (some (.error f), now, c) => ⟨some (.error f), now, c⟩
  | (some (.ok l), now, c) => ⟨some (.ok ()), now, { c with slot := some l }⟩

end SigningIn

section Commands

/-- Runs a command on a connection taken out of the slot. -/
def runOn (c : Client) (l : Link) (patience : Deadline) (now : Nat) (text : String) :
    Call (List Record) :=
  let turn := l.command Link.defaultTimeLimit patience now text
  match turn.result with
  | none => ⟨none, turn.now, c.giveUp turn.link⟩
  | some (.ok records) => ⟨some (.ok records), turn.now, { c with slot := some turn.link }⟩
  | some (.error f) =>
    ⟨some (.error f), turn.now,
      if f.losesLink then c.giveUp turn.link else { c with slot := some turn.link }⟩

/-- Runs a command, signing in first if there is no connection. -/
def perform (c : Client) (patience : Deadline) (now : Nat) (text : String) :
    Call (List Record) :=
  match c.slot with
  | some l => { c with slot := none }.runOn l patience now text
  | none =>
    match c.signIn patience now with
    | (none, now, c) => ⟨none, now, c⟩
    | (some (.error f), now, c) => ⟨some (.error f), now, c⟩
    | (some (.ok l), now, c) => c.runOn l patience now text

/-- Says goodbye and gives the connection up, if there is one. -/
def leave (c : Client) (now : Nat) : Call Answer :=
  match c.slot with
  | none => ⟨some (.ok .done), now, c⟩
  | some l =>
    let turn := l.writeLine now "quit"
    ⟨turn.result.map (·.map fun _ => .done), turn.now, { c with slot := none }.giveUp turn.link⟩

/-- Serves a request of a caller that has the connection to itself. -/
def serve (c : Client) (patience : Deadline) (now : Nat) (r : Request) : Call Answer :=
  match r, r.command with
  | .quit, _ => c.leave now
  | _, none => ⟨some (.ok .done), now, c⟩
  | r, some text =>
    let call := c.perform patience now text
    ⟨call.result.map (·.bind r.answer), call.now, call.client⟩

/-- The connections in the order in which they were opened. -/
def links (c : Client) : List Link := c.past.reverse ++ c.slot.toList

end Commands

end Client
end VoiceRelay
