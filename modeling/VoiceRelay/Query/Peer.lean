import VoiceRelay.Query.Fault
import VoiceRelay.Query.Line

/-!
# The other side of a connection

What the relay can observe of its peer is a script: octets, silences, read troubles, the end of the
stream. Time is counted in milliseconds and passes only while everything waits, so a read with a
deadline is a function of the script: it walks the steps, moves the clock over silences, and stops
at the first line that is complete or at the deadline.

**Design.** `Reader` keeps the octets that were received and not yet handed out, and what it has to
do next. `Reader.pop` hands out what is there without reading; `listen` reads. A silence begins when
a read first reaches it; from then on its end is a fixed time, so a read that gives up at a deadline
and a later read together wait no longer than one read.

**Results.**

- `pop_line_length`: handing out a line makes the buffer shorter.
- `listen_weight`: reading never makes buffer and script together heavier, and a line makes them
  lighter.
-/

namespace VoiceRelay

/-- A point in time, in milliseconds, that may never come. -/
abbrev Deadline := Option Nat

/-- Whether a deadline lies before a time. -/
def Deadline.before (d : Deadline) (t : Nat) : Bool :=
  match d with
  | none => false
  | some e => decide (e < t)

/-- The earlier of two deadlines. -/
def Deadline.earlier : Deadline → Deadline → Deadline
  | none, d => d
  | d, none => d
  | some a, some b => some (min a b)

/-- One step of the other side. -/
inductive Step
  | data (octets : List UInt8)
  | silence (length : Nat)
  | silentUntil (time : Nat)
  | awaitLines (count : Nat)
  | trouble (cause : Trouble)
  | finish
  | shutInbox
  deriving DecidableEq, Repr

/-- What the next read of a line has to do. -/
inductive Phase
  | receiving
  | framing
  | draining
  | past
  | failed
  deriving DecidableEq, Repr

/-- The octets received and not yet handed out. -/
structure Reader where
  buffer : List UInt8
  phase : Phase
  limit : Nat
  deriving DecidableEq, Repr

/-- What one read of a line gives: a line, the end, a trouble, or nothing before the deadline. -/
inductive Heard
  | line (text : String)
  | ended
  | failed (cause : Trouble)
  | nothing
  deriving DecidableEq, Repr

namespace Reader

/-- A reader that has received nothing. -/
def fresh : Reader := ⟨[], .receiving, Line.defaultLimit⟩

/-- What can be handed out without reading. After a failure the next read gives the end once. -/
def pop (r : Reader) : Option (Heard × Reader) :=
  match r.phase with
  | .receiving => none
  | .framing =>
    match Line.decode r.limit false r.buffer with
    | .line text rest => some (.line text, { r with buffer := rest })
    | .tooLong n => some (.failed (.lineTooLong n r.limit), { r with phase := .failed })
    | .more => none
  | .draining =>
    match Line.decode r.limit true r.buffer with
    | .line text rest => some (.line text, { r with buffer := rest })
    | .tooLong n => some (.failed (.lineTooLong n r.limit), { r with phase := .failed })
    | .more => some (.ended, { r with phase := .past })
  | .past => some (.ended, r)
  | .failed => some (.ended, { r with phase := .receiving })

/-- The reader after more octets. -/
def feed (r : Reader) (octets : List UInt8) : Reader :=
  { r with buffer := r.buffer ++ octets, phase := .framing }

end Reader

/-- What a read has come to: what it gives, when, and what is left. -/
structure Listened where
  heard : Heard
  now : Nat
  reader : Reader
  script : List Step
  inboxShut : Bool
  deriving DecidableEq, Repr

/-- Reads a line from a script, after `lines` lines were sent to the other side. -/
def listen (lines : Nat) (deadline : Deadline) (r : Reader) (shut : Bool) (now : Nat) :
    List Step → Listened
  | [] => ⟨.nothing, deadline.getD now, r, [], shut⟩
  | .data octets :: rest =>
    if octets.isEmpty then listen lines deadline r shut now rest
    else
      let r := r.feed octets
      match r.pop with
      | some (heard, r) => ⟨heard, now, r, rest, shut⟩
      | none => listen lines deadline r shut now rest
  | .silence length :: rest =>
    let t := now + length
    if deadline.before t then ⟨.nothing, deadline.getD now, r, .silentUntil t :: rest, shut⟩
    else listen lines deadline r shut t rest
  | .silentUntil t :: rest =>
    if deadline.before t then ⟨.nothing, deadline.getD now, r, .silentUntil t :: rest, shut⟩
    else listen lines deadline r shut (max now t) rest
  | .awaitLines count :: rest =>
    if count ≤ lines then listen lines deadline r shut now rest
    else ⟨.nothing, deadline.getD now, r, .awaitLines count :: rest, shut⟩
  | .trouble cause :: rest => ⟨.failed cause, now, { r with phase := .failed }, rest, shut⟩
  | .finish :: rest =>
    match { r with phase := .draining : Reader }.pop with
    | some (heard, r) => ⟨heard, now, r, .finish :: rest, shut⟩
    | none => ⟨.ended, now, { r with phase := .past }, .finish :: rest, shut⟩
  | .shutInbox :: rest => listen lines deadline r true now rest

section Laws

/-- How much a step can still bring. -/
def Step.weight : Step → Nat
  | .data octets => octets.length + 1
  | _ => 1

/-- How much a script can still bring. -/
def scriptWeight : List Step → Nat
  | [] => 0
  | s :: script => s.weight + scriptWeight script

@[simp] theorem scriptWeight_nil : scriptWeight [] = 0 := rfl

@[simp] theorem scriptWeight_cons (s : Step) (script : List Step) :
    scriptWeight (s :: script) = s.weight + scriptWeight script := rfl

/-- Handing out never makes the buffer longer, and a line makes it shorter. -/
theorem pop_length {r r' : Reader} {heard : Heard} (h : r.pop = some (heard, r')) :
    r'.buffer.length ≤ r.buffer.length ∧
      (∀ text, heard = .line text → r'.buffer.length < r.buffer.length) := by
  unfold Reader.pop at h
  split at h
  · simp at h
  · split at h
    · next text rest hd =>
      have := Line.decode_length hd
      simp only [Option.some.injEq, Prod.mk.injEq] at h
      obtain ⟨rfl, rfl⟩ := h
      exact ⟨Nat.le_of_lt this, fun _ _ => this⟩
    · simp only [Option.some.injEq, Prod.mk.injEq] at h
      obtain ⟨rfl, rfl⟩ := h
      simp
    · simp at h
  · split at h
    · next text rest hd =>
      have := Line.decode_length hd
      simp only [Option.some.injEq, Prod.mk.injEq] at h
      obtain ⟨rfl, rfl⟩ := h
      exact ⟨Nat.le_of_lt this, fun _ _ => this⟩
    · simp only [Option.some.injEq, Prod.mk.injEq] at h
      obtain ⟨rfl, rfl⟩ := h
      simp
    · simp only [Option.some.injEq, Prod.mk.injEq] at h
      obtain ⟨rfl, rfl⟩ := h
      simp
  · simp only [Option.some.injEq, Prod.mk.injEq] at h
    obtain ⟨rfl, rfl⟩ := h
    simp
  · simp only [Option.some.injEq, Prod.mk.injEq] at h
    obtain ⟨rfl, rfl⟩ := h
    simp

/-- How much a read has left to bring. -/
def Listened.weight (l : Listened) : Nat := l.reader.buffer.length + scriptWeight l.script

/-- **Reading uses up.** Buffer and script together never become heavier, and a line makes them
lighter. -/
theorem listen_weight (lines : Nat) (deadline : Deadline) (r : Reader) (shut : Bool)
    (now : Nat) (script : List Step) :
    (listen lines deadline r shut now script).weight ≤ r.buffer.length + scriptWeight script ∧
      (∀ text, (listen lines deadline r shut now script).heard = .line text →
        (listen lines deadline r shut now script).weight <
          r.buffer.length + scriptWeight script) := by
  induction script generalizing r shut now with
  | nil => simp [listen, Listened.weight]
  | cons s script ih =>
    match s with
    | .data octets =>
      simp only [listen]
      split
      · have := ih r shut now
        simp only [scriptWeight_cons, Step.weight]
        exact ⟨by omega, fun t ht => by have := this.2 t ht; omega⟩
      split
      · next heard r' hp =>
        have hl := (pop_length hp).1
        simp only [Reader.feed, List.length_append] at hl
        simp only [Listened.weight, scriptWeight_cons, Step.weight]
        exact ⟨by omega, fun _ _ => by omega⟩
      · have := ih (r.feed octets) shut now
        simp only [Reader.feed, List.length_append] at this
        simp only [scriptWeight_cons, Step.weight, Reader.feed]
        exact ⟨by omega, fun t ht => by have := this.2 t ht; omega⟩
    | .silence length =>
      simp only [listen]
      split
      · simp [Listened.weight, Step.weight]
      · have := ih r shut (now + length)
        simp only [scriptWeight_cons, Step.weight]
        exact ⟨by omega, fun t ht => by have := this.2 t ht; omega⟩
    | .silentUntil time =>
      simp only [listen]
      split
      · simp [Listened.weight]
      · have := ih r shut (max now time)
        simp only [scriptWeight_cons, Step.weight]
        exact ⟨by omega, fun t ht => by have := this.2 t ht; omega⟩
    | .awaitLines count =>
      simp only [listen]
      split
      · have := ih r shut now
        simp only [scriptWeight_cons, Step.weight]
        exact ⟨by omega, fun t ht => by have := this.2 t ht; omega⟩
      · simp [Listened.weight]
    | .trouble cause =>
      simp only [listen, Listened.weight, scriptWeight_cons, Step.weight]
      exact ⟨by omega, fun t ht => by simp at ht⟩
    | .finish =>
      simp only [listen]
      split
      · next heard r' hp =>
        have hl := pop_length hp
        simp only [Listened.weight, scriptWeight_cons]
        exact ⟨by have := hl.1; simp only at this; omega,
          fun t ht => by have := hl.2 t ht; simp only at this; omega⟩
      · simp [Listened.weight]
    | .shutInbox =>
      simp only [listen]
      have := ih r true now
      simp only [scriptWeight_cons, Step.weight]
      exact ⟨by omega, fun t ht => by have := this.2 t ht; omega⟩

end Laws

end VoiceRelay
