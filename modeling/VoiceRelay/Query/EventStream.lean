import VoiceRelay.Journal.Writer
import VoiceRelay.Query.Credentials
import VoiceRelay.Query.Link
import VoiceRelay.Query.Notice

/-!
# The stream of server chat

A connection of its own on which the relay registers for text events and passes each text on to
the hub. A session reads the greeting, sends login, choice of server and registration, each
acknowledged by one line whatever it says, and then relays. Whenever no whole line arrived for the
keepalive interval it sends an empty line.

**Messages.** What is done with a message does not matter to the session, but for whether the hub
still takes it: `sessionWith` gets it as an argument. `Intake` counts and passes on; `Relay` keeps a
journal of the messages as well, whose writes may fail.

**States.** `handshaking` until the registration was acknowledged, then `registered` and at once
`streaming`. States are published into the log of the connection, so that their order with reads
and writes is kept.

**Ends.** A session ends well only when the hub takes no more messages; else with a fault, or
because its time is over.

**Results.**

- `streamWith` is recursion on a number made of the rest of the connection and the time left;
  `streamWith_eq` is one round of it.
-/

namespace VoiceRelay

/-- Whether a state counts as connected. -/
def StreamState.isConnected : StreamState → Bool
  | .registered | .streaming => true
  | _ => false

/-- What the event stream needs to know. -/
structure StreamSettings where
  credentials : Credentials
  keepalive : Nat
  pause : Nat
  dialLimit : Nat
  deriving DecidableEq, Repr

/-- What came out of the stream so far: messages read, and messages the hub took; newest first. -/
structure Intake where
  read : List String
  taken : List String
  deriving DecidableEq, Repr

/-- Takes a message in; the hub gets it unless it is closed. -/
def Intake.take (x : Intake) (closed : Bool) (message : String) : Intake :=
  ⟨message :: x.read, if closed then x.taken else message :: x.taken⟩

/-- A journal of the messages: the file, the time noted with the n-th message, whether writing it
works, and how many were tried. -/
structure ChatLog where
  writer : Journal.Writer
  stamp : Nat → String
  works : Nat → Bool
  tried : Nat

/-- Enters a message; a journal that cannot be written to stays as it is. -/
def ChatLog.enter (c : ChatLog) (message : String) : ChatLog :=
  { c with
    writer :=
      if c.works c.tried then c.writer.append (.message (c.stamp c.tried) message) else c.writer
    tried := c.tried + 1 }

/-- What came out of the stream, and the journal of it if there is one. -/
structure Relay where
  intake : Intake
  chatLog : Option ChatLog

/-- Takes a message in: it is counted, entered into the journal, and passed to the hub. -/
def Relay.take (x : Relay) (closed : Bool) (message : String) : Relay :=
  ⟨x.intake.take closed message, x.chatLog.map (·.enter message)⟩

/-- What a session has come to; no result if its time was over. -/
structure SessionOf (σ : Type) where
  result : Option (Except Fault Unit)
  now : Nat
  link : Link
  intake : σ

/-- A session without a journal. -/
abbrev Session := SessionOf Intake

/-- Publishes a state into the log of a connection. -/
def Link.publish (l : Link) (s : StreamState) : Link := l.note (.published s)

namespace EventStream

section Defs

/-- The registration for text events. -/
def registration : String := "servernotifyregister event=textserver"

/-- The commands of the handshake, in order. -/
def handshake (c : Credentials) : List String := [c.login, c.use, registration]

/-- Relays until the session ends or its time is over; `take` takes a message in. -/
def streamWith {σ : Type} (take : σ → Bool → String → σ) (beat : Nat) (stopAt : Nat) (now : Nat)
    (x : σ) (l : Link) : SessionOf σ :=
  let due := now + max 1 beat
  match _h : l.hear (some (min due stopAt)) now with
  | (.nothing, _, l') =>
    if _hd : stopAt < due then ⟨none, stopAt, l', x⟩
    else
      match _hs : l'.send due "" with
      | (some t, l'') => ⟨some (.error (.stream t)), due, l'', x⟩
      | (none, l'') => streamWith take beat stopAt due x l''
  | (.ended, now', l') => ⟨some (.error .closed), now', l', x⟩
  | (.failed t, now', l') => ⟨some (.error (.stream t)), now', l', x⟩
  | (.line text, now', l') =>
    match Notice.text? text with
    | none => streamWith take beat stopAt now' x l'
    | some message =>
      let x := take x l'.inboxShut message
      if l'.inboxShut then ⟨some (.ok ()), now', l', x⟩
      else streamWith take beat stopAt now' x l'
  termination_by l.weight * (stopAt + 1) + (stopAt - now)
  decreasing_by
    · have h₁ := (Link.hear_weight l (some (min due stopAt)) now).1
      have h₂ := Link.weight_send l' due ""
      rw [_h] at h₁
      rw [_hs] at h₂
      have : ¬ stopAt < now + max 1 beat := _hd
      exact Nat.add_lt_add_of_le_of_lt (Nat.mul_le_mul_right _ (h₂ ▸ h₁)) (by omega)
    all_goals
      have h₁ := (Link.hear_weight l (some (min due stopAt)) now).2 text (by rw [_h])
      rw [_h] at h₁
      have h₂ := Nat.mul_le_mul_right (stopAt + 1) h₁
      rw [Nat.succ_mul] at h₂
      simp only at h₂
      omega

/-- Relays without a journal. -/
def stream (beat : Nat) (stopAt : Nat) (now : Nat) (x : Intake) (l : Link) : Session :=
  streamWith Intake.take beat stopAt now x l

/-- Sends the commands of the handshake one after the other; what a line of acknowledgement says
does not matter. -/
def register (stopAt : Nat) (now : Nat) (l : Link) : List String → Link.Turn Unit
  | [] => ⟨some (.ok ()), now, l⟩
  | text :: texts =>
    let turn := l.acknowledged (some stopAt) now text
    match turn.result with
    | some (.ok _) => register stopAt turn.now turn.link texts
    | some (.error f) => ⟨some (.error f), turn.now, turn.link⟩
    | none => ⟨none, turn.now, turn.link⟩

/-- The session after the greeting: the commands of the handshake, then relaying. -/
def registeredWith {σ : Type} (take : σ → Bool → String → σ) (s : StreamSettings) (stopAt : Nat)
    (now : Nat) (x : σ) (l : Link) : SessionOf σ :=
  let known := register stopAt now l (handshake s.credentials)
  match known.result with
  | none => ⟨none, known.now, known.link, x⟩
  | some (.error f) => ⟨some (.error f), known.now, known.link, x⟩
  | some (.ok ()) =>
    streamWith take s.keepalive stopAt known.now x
      ((known.link.publish .registered).publish .streaming)

/-- A whole session on an open stream, until a time; `take` takes a message in. -/
def sessionWith {σ : Type} (take : σ → Bool → String → σ) (s : StreamSettings) (stopAt : Nat)
    (now : Nat) (x : σ) (l : Link) : SessionOf σ :=
  let greeted := (l.publish .handshaking).greet (some stopAt) now
  match greeted.result with
  | none => ⟨none, greeted.now, greeted.link, x⟩
  | some (.error f) => ⟨some (.error f), greeted.now, greeted.link, x⟩
  | some (.ok ()) => registeredWith take s stopAt greeted.now x greeted.link

/-- A whole session on an open stream, without a journal. -/
def session (s : StreamSettings) (stopAt : Nat) (now : Nat) (x : Intake) (l : Link) : Session :=
  sessionWith Intake.take s stopAt now x l

end Defs

section Laws

/-- One round of streaming. -/
theorem streamWith_eq {σ : Type} (take : σ → Bool → String → σ) (beat stopAt now : Nat) (x : σ)
    (l : Link) :
    streamWith take beat stopAt now x l =
      match l.hear (some (min (now + max 1 beat) stopAt)) now with
      | (.nothing, _, l') =>
        if stopAt < now + max 1 beat then ⟨none, stopAt, l', x⟩
        else
          match l'.send (now + max 1 beat) "" with
          | (some t, l'') => ⟨some (.error (.stream t)), now + max 1 beat, l'', x⟩
          | (none, l'') => streamWith take beat stopAt (now + max 1 beat) x l''
      | (.ended, now', l') => ⟨some (.error .closed), now', l', x⟩
      | (.failed t, now', l') => ⟨some (.error (.stream t)), now', l', x⟩
      | (.line text, now', l') =>
        match Notice.text? text with
        | none => streamWith take beat stopAt now' x l'
        | some message =>
          if l'.inboxShut then ⟨some (.ok ()), now', l', take x l'.inboxShut message⟩
          else streamWith take beat stopAt now' (take x l'.inboxShut message) l' := by
  rw [streamWith]
  split
  · next heq =>
    rw [heq]
    simp only
    split
    · rfl
    · split <;> simp_all
  · next heq => simp only [heq]
  · next heq => simp only [heq]
  · next heq => simp only [heq]

end Laws

section Views

/-- The last state that a log holds, before it a given one. -/
def lastState (before : StreamState) : List Entry → StreamState
  | [] => before
  | .published s :: _ => s
  | _ :: log => lastState before log

/-- The state at each write, newest first. -/
def statesAtWrites (before : StreamState) : List Entry → List StreamState
  | [] => []
  | .sent _ _ :: log => lastState before log :: statesAtWrites before log
  | _ :: log => statesAtWrites before log

end Views

end EventStream
end VoiceRelay
