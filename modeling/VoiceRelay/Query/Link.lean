import VoiceRelay.Query.Peer
import VoiceRelay.Query.Record

/-!
# A connection to the query interface

A link is one connection: what was received, what the other side still has to say, and a log of
what crossed the wire. Three exchanges are built on reading and writing lines: reading the greeting,
a command with its whole reply, and a command with a single line of acknowledgement.

**Time.** Every exchange takes the time it starts at and the time at which its caller gives up. A
command has a deadline of its own for the reply; the greeting and an acknowledgement have none.

**Log.** Entries are kept newest first. Only what happened is logged: a line accepted by the stream,
a line handed out, a state that was published.

**Results.**

- `hear_weight`: a line that is read makes the rest of the connection lighter.
- `reply` is recursion on that weight; `reply_eq` is one round of it.
-/

namespace VoiceRelay

/-- The states of the event stream. -/
inductive StreamState
  | disconnected
  | handshaking
  | registered
  | streaming
  | failed
  deriving DecidableEq, Repr

/-- What happened on a connection. -/
inductive Entry
  | sent (time : Nat) (octets : List UInt8)
  | heard (time : Nat) (line : String)
  | published (state : StreamState)
  deriving DecidableEq, Repr

/-- One connection. -/
structure Link where
  reader : Reader
  script : List Step
  accepted : Option Nat
  writes : Nat
  inboxShut : Bool
  log : List Entry
  deriving Repr

/-- The other side of a connection before anything happened: its script, and how many writes it
accepts if not all. -/
structure Peer where
  script : List Step
  accepted : Option Nat
  deriving Repr

namespace Link

section Lines

/-- A fresh connection. -/
def ofPeer (p : Peer) : Link := ⟨.fresh, p.script, p.accepted, 0, false, []⟩

/-- How many lines were sent to the other side. -/
def lines (l : Link) : Nat :=
  match l.accepted with
  | none => l.writes
  | some k => min l.writes k

/-- The octets sent so far. -/
def sentOctets (l : Link) : List UInt8 :=
  l.log.reverse.flatMap fun
    | .sent _ octets => octets
    | _ => []

/-- How much the connection can still bring. -/
def weight (l : Link) : Nat := l.reader.buffer.length + scriptWeight l.script

/-- Notes what happened. -/
def note (l : Link) (e : Entry) : Link := { l with log := e :: l.log }

/-- Reads the next line. -/
def hear (l : Link) (deadline : Deadline) (now : Nat) : Heard × Nat × Link :=
  let out : Listened :=
    match l.reader.pop with
    | some (heard, r) => ⟨heard, now, r, l.script, l.inboxShut⟩
    | none => listen l.lines deadline l.reader l.inboxShut now l.script
  let l := { l with reader := out.reader, script := out.script, inboxShut := out.inboxShut }
  match out.heard with
  | .line text => (.line text, out.now, l.note (.heard out.now text))
  | heard => (heard, out.now, l)

/-- Whether the next write fails. -/
def refuses (l : Link) : Bool :=
  match l.accepted with
  | none => false
  | some k => decide (k ≤ l.writes)

/-- Writes one line; a line break in it is refused before anything is written. -/
def send (l : Link) (now : Nat) (command : String) : Option Trouble × Link :=
  match Line.frame command with
  | none => (some .lineBreak, l)
  | some octets =>
    let next := { l with writes := l.writes + 1 }
    if l.refuses then (some .brokenPipe, next) else (none, next.note (.sent now octets))

theorem weight_note (l : Link) (e : Entry) : (l.note e).weight = l.weight := rfl

theorem weight_send (l : Link) (now : Nat) (command : String) :
    (l.send now command).2.weight = l.weight := by
  unfold send
  split
  · rfl
  · simp only
    split <;> rfl

/-- Reading never makes a connection heavier, and a line makes it lighter. -/
theorem hear_weight (l : Link) (deadline : Deadline) (now : Nat) :
    (l.hear deadline now).2.2.weight ≤ l.weight ∧
      (∀ text, (l.hear deadline now).1 = .line text →
        (l.hear deadline now).2.2.weight < l.weight) := by
  unfold hear
  cases hp : l.reader.pop with
  | none =>
    have := listen_weight l.lines deadline l.reader l.inboxShut now l.script
    simp only
    split
    · next text ht =>
      simp only [weight_note]
      exact ⟨this.1, fun _ _ => this.2 text ht⟩
    · next hne =>
      exact ⟨this.1, fun text ht => absurd ht (hne text)⟩
  | some hr =>
    obtain ⟨heard, r⟩ := hr
    have := pop_length hp
    simp only
    split
    · next text =>
      simp only [weight]
      exact ⟨Nat.add_le_add_right this.1 _, fun _ _ => Nat.add_lt_add_right (this.2 text rfl) _⟩
    · next hne =>
      exact ⟨Nat.add_le_add_right this.1 _, fun text ht => absurd ht (hne text)⟩

end Lines

section Exchanges

/-- What an exchange has come to; no result if its caller gave up. -/
structure Turn (α : Type) where
  result : Option (Except Fault α)
  now : Nat
  link : Link

/-- The first line of every query interface. -/
def banner : List Char := "TS3".toList

/-- Reads the banner and the greeting. -/
def greet (l : Link) (patience : Deadline) (now : Nat) : Turn Unit :=
  match l.hear patience now with
  | (.nothing, now, l) => ⟨none, now, l⟩
  | (.ended, now, l) => ⟨some (.error .bannerMissing), now, l⟩
  | (.failed t, now, l) => ⟨some (.error (.stream t)), now, l⟩
  | (.line first, now, l) =>
    if Text.trim first.toList = banner then
      match l.hear patience now with
      | (.nothing, now, l) => ⟨none, now, l⟩
      | (.ended, now, l) => ⟨some (.error .greetingMissing), now, l⟩
      | (.failed t, now, l) => ⟨some (.error (.stream t)), now, l⟩
      | (.line _, now, l) => ⟨some (.ok ()), now, l⟩
    else ⟨some (.error (.bannerWrong first)), now, l⟩

/-- How a line starts that belongs to no reply. -/
def noticeLead : List Char := "notify".toList

/-- The records of a line inside a reply; blank lines and notices hold none. -/
def recordsIn (line : String) : List Record :=
  let cs := Text.trim line.toList
  if cs.isEmpty ∨ (Text.dropLead? noticeLead cs).isSome then [] else Record.listOfChars cs

/-- Reads a reply up to its status line; `records` came before. No result at the deadline. -/
def reply (l : Link) (deadline : Deadline) (now : Nat) (records : List Record) :
    Turn (List Record) :=
  match _h : l.hear deadline now with
  | (.nothing, now', l') => ⟨none, now', l'⟩
  | (.ended, now', l') => ⟨some (.error .closed), now', l'⟩
  | (.failed t, now', l') => ⟨some (.error (.stream t)), now', l'⟩
  | (.line text, now', l') =>
    match Status.parse? text with
    | some s =>
      if s.isOk then ⟨some (.ok records), now', l'⟩
      else ⟨some (.error (.refusal s.id s.message)), now', l'⟩
    | none => l'.reply deadline now' (records ++ recordsIn text)
  termination_by l.weight
  decreasing_by
    have := (hear_weight l deadline now).2 text (by rw [_h])
    rwa [_h] at this

/-- One line of a reply. -/
theorem reply_eq (l : Link) (deadline : Deadline) (now : Nat) (records : List Record) :
    l.reply deadline now records =
      match l.hear deadline now with
      | (.nothing, now', l') => ⟨none, now', l'⟩
      | (.ended, now', l') => ⟨some (.error .closed), now', l'⟩
      | (.failed t, now', l') => ⟨some (.error (.stream t)), now', l'⟩
      | (.line text, now', l') =>
        match Status.parse? text with
        | some s =>
          if s.isOk then ⟨some (.ok records), now', l'⟩
          else ⟨some (.error (.refusal s.id s.message)), now', l'⟩
        | none => l'.reply deadline now' (records ++ recordsIn text) := by
  rw [reply]
  split <;> next heq => simp only [heq]

/-- The first word of a command. -/
def commandName (command : String) : String :=
  .ofList (command.toList.takeWhile (· != ' '))

/-- The time a reply may take. -/
def defaultTimeLimit : Nat := 10000

/-- Sends a command and reads its reply within the time limit. -/
def command (l : Link) (timeLimit : Nat) (patience : Deadline) (now : Nat) (text : String) :
    Turn (List Record) :=
  match l.send now text with
  | (some t, l) => ⟨some (.error (.stream t)), now, l⟩
  | (none, l) =>
    let limit := now + timeLimit
    let turn := l.reply (Deadline.earlier (some limit) patience) now []
    match turn.result with
    | some _ => turn
    | none =>
      if patience.before limit then turn
      else { turn with
        result := some (.error (.timeLimit ("Antwort auf '" ++ commandName text ++ "'"))) }

/-- Sends a command and reads the one line that acknowledges it. -/
def acknowledged (l : Link) (patience : Deadline) (now : Nat) (text : String) :
    Turn (Option Status) :=
  match l.send now text with
  | (some t, l) => ⟨some (.error (.stream t)), now, l⟩
  | (none, l) =>
    match l.hear patience now with
    | (.nothing, now, l) => ⟨none, now, l⟩
    | (.ended, now, l) => ⟨some (.error .closed), now, l⟩
    | (.failed t, now, l) => ⟨some (.error (.stream t)), now, l⟩
    | (.line line, now, l) => ⟨some (.ok (Status.parse? line)), now, l⟩

/-- Reads one line, or the end. -/
def readLine (l : Link) (patience : Deadline) (now : Nat) : Turn (Option String) :=
  match l.hear patience now with
  | (.nothing, now, l) => ⟨none, now, l⟩
  | (.ended, now, l) => ⟨some (.ok none), now, l⟩
  | (.failed t, now, l) => ⟨some (.error (.stream t)), now, l⟩
  | (.line line, now, l) => ⟨some (.ok (some line)), now, l⟩

/-- Writes one line. -/
def writeLine (l : Link) (now : Nat) (text : String) : Turn Unit :=
  match l.send now text with
  | (some t, l) => ⟨some (.error (.stream t)), now, l⟩
  | (none, l) => ⟨some (.ok ()), now, l⟩

end Exchanges

end Link
end VoiceRelay
