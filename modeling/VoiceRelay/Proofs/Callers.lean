import VoiceRelay.Query.Schedule
import VoiceRelay.Proofs.SharedConnection

/-!
# Runs of callers on the shared connection

Any number of callers begin at any times, wait for the connection, are served one after the other,
and may give up at any time. The client changes only when one of them is served, so what every served
request keeps holds in every run.

**Results.**

- `step_client`: a step of the schedule serves one request or leaves the client alone.
- `play_sound`: the invariant of the client holds between any two moves of a run.
- `connection_in_step`: every command line on the connection in the slot has had its whole reply, and
  what a request returns was read after its own command.
- `commands_after_sign_in`: what is written on a session is login, choice of server, and then commands
  of callers, each after the reply to the one before it.
-/

namespace VoiceRelay

namespace Schedule

section Runs

/-- What can happen around the shared connection: a caller begins, the schedule takes a step, or
time passes. -/
inductive Move
  | join (job : Job) (patience : Deadline)
  | step
  | pass (length : Nat)

/-- The schedule after a move; a step of a schedule that has nothing to do changes nothing. -/
def move (s : Schedule) : Move → Schedule
  | .join job patience =>
    enqueue { s with tasks := s.tasks ++ [⟨job.start s.now, patience⟩] } s.tasks.length
  | .step => s.step.getD s
  | .pass length => wakeUntil (s.now + length) s.tasks.length { s with now := s.now + length }

/-- A run: moves from the moment at which the first connection was tried. -/
def play (k : Credentials) (dials : List Dial) (exhausted : Fault) (patience : Deadline)
    (moves : List Move) : Schedule :=
  let call := (Client.fresh k dials exhausted).connect patience 0
  moves.foldl move ⟨call.now, call.client, [], []⟩

@[simp] theorem enqueue_client (s : Schedule) (i : Nat) : (s.enqueue i).client = s.client := by
  unfold enqueue
  split
  · rfl
  · split <;> rfl

@[simp] theorem wakeUntil_client (time n : Nat) (s : Schedule) :
    (wakeUntil time n s).client = s.client := by
  induction n generalizing s with
  | zero => rfl
  | succ n ih =>
    unfold wakeUntil
    split
    · rfl
    · split
      · rfl
      · split
        · rfl
        · rw [ih, enqueue_client]

/-- A step serves one request or leaves the client alone. -/
theorem step_client {s s' : Schedule} (h : s.step = some s') :
    s'.client = s.client ∨
      ∃ patience r, s'.client = (s.client.serve patience s.now r).client := by
  unfold step at h
  split at h
  · next i queue _ =>
    split at h
    · cases h
      exact Or.inl rfl
    · next t _ =>
      split at h
      · cases h
        exact Or.inl rfl
      · next r _ =>
        split at h
        · cases h
          exact Or.inl rfl
        · cases h
          exact Or.inr ⟨t.waiting, r, by simp⟩
  · split at h
    · cases h
    · cases h
      exact Or.inl (by simp)

variable {k : Credentials} {dials : List Dial}

theorem move_sound {s : Schedule} (h : s.client.Sound k dials) (m : Move) :
    (s.move m).client.Sound k dials := by
  cases m with
  | join job patience => simpa [move] using h
  | pass length => simpa [move] using h
  | step =>
    unfold move
    rcases hs : s.step with _ | s'
    · exact h
    · rcases step_client hs with hc | ⟨patience, r, hc⟩
      · simpa [hc] using h
      · simpa [hc] using (Client.serve_sound h patience s.now r).1

/-- **The invariant holds in every run** of callers, between any two moves. -/
theorem play_sound (k : Credentials) (dials : List Dial) (exhausted : Fault) (patience : Deadline)
    (moves : List Move) : (play k dials exhausted patience moves).client.Sound k dials := by
  unfold play
  have hstart : ((Client.fresh k dials exhausted).connect patience 0).client.Sound k dials :=
    Client.connect_sound (Client.fresh_sound k dials exhausted) rfl patience 0
  generalize (Client.fresh k dials exhausted).connect patience 0 = call at *
  simp only
  generalize hs : (⟨call.now, call.client, [], []⟩ : Schedule) = s
  have hs' : s.client.Sound k dials := by rw [← hs]; exact hstart
  clear hs
  induction moves generalizing s with
  | nil => exact hs'
  | cons m moves ih => exact ih (s.move m) (move_sound hs' m)

/-- **The connection in the slot is in step.** In every run of callers, while nobody is served: the
sessions opened so far are read by one connection each, and the one in the slot has read the greeting
and, for every command written on it, one whole reply, nothing more. So whatever request is served
next, its records or its refusal are read after its own command on the connection on which that was
written, and what was given up is not read again. -/
theorem connection_in_step (k : Credentials) (dials : List Dial) (exhausted : Fault)
    (patience : Deadline) (moves : List Move) :
    let c := (play k dials exhausted patience moves).client
    List.Forall₂ Link.Follows (opened dials c.dialled) c.links ∧
      (∀ l, c.slot = some l → ∃ first second xs,
        l.transcript = said [first, second] xs ∧ Text.trim first.toList = Link.banner ∧
          2 ≤ xs.length ∧ ∀ x ∈ xs, ∃ s, x.Closed s) ∧
      ∀ (patience : Deadline) (now : Nat) (r : Request),
        let call := c.serve patience now r
        c.past <:+ call.client.past ∧
          ∀ text, r.command = some text → r ≠ .quit →
            ∃ learnt, call.result = learnt.map (·.bind r.answer) ∧
              c.Learns k call.client text learnt := by
  intro c
  have hc : c.Sound k dials := play_sound k dials exhausted patience moves
  refine ⟨hc.follows, ?_, ?_⟩
  · intro l hl
    obtain ⟨opening, xs, hr, hlen⟩ := hc.slot l hl
    obtain ⟨first, second, rfl, hbanner⟩ := hr.welcomed
    refine ⟨first, second, xs, hr.transcript_eq, hbanner, hlen, ?_⟩
    intro x hx
    obtain ⟨i, hi, rfl⟩ := List.getElem_of_mem hx
    obtain ⟨s, hs, _⟩ := hr.settled i xs[i] (List.getElem?_eq_getElem hi)
    exact ⟨s, hs⟩
  · intro patience now r
    exact ⟨(Client.serve_sound hc patience now r).2,
      fun text ht hr => Client.serve_learns hc patience now ht hr⟩

/-- A command that is refused leaves the connection in step. -/
example :
    let peer : Peer := ⟨[.data (Utf8.encode ("TS3\n\rWelcome\n\rerror id=0 msg=ok\n\r" ++
      "error id=0 msg=ok\n\rerror id=512 msg=invalid\n\r").toList)], none⟩
    (play ⟨"bot", "secret", "voice", 10011, 1⟩ [.ok peer] .closed none
      [.join (.request .ping) none, .step]).client.slot.map (fun l =>
        (l.heardLines.length, l.reader.buffer)) = some (5, []) := by
  decide +kernel

/-- **Commands only after signing in, one at a time.** On every session of every run whole lines are
written: login, choice of server, and commands that callers ask for, in this order. Each of them but
the last was answered by a status line on that session, login and choice of server by one with the
number 0, and none of them is a farewell. -/
theorem commands_after_sign_in (k : Credentials) (dials : List Dial) (exhausted : Fault)
    (patience : Deadline) (moves : List Move) :
    let c := (play k dials exhausted patience moves).client
    List.Forall₂ Link.Follows (opened dials c.dialled) c.links ∧
      ∀ l ∈ c.links, ∃ opening xs, l.transcript = said opening xs ∧
        l.sentOctets = (xs.flatMap fun x => Line.written x.command) ∧
        (∀ x ∈ xs, Line.breaks x.command = false) ∧
        (∃ asked : List String, (∀ text ∈ asked, Asked text) ∧
          xs.map (·.command) <+: k.login :: k.use :: asked) ∧
        ∀ (i : Nat) (x : Exchange), xs[i]? = some x → i + 1 < xs.length →
          ∃ s, x.Closed s ∧ (i < 2 → s.id = 0) ∧ x.command ≠ "quit" := by
  intro c
  have hc : c.Sound k dials := play_sound k dials exhausted patience moves
  refine ⟨hc.follows, fun l hl => ?_⟩
  have hspeaks : l.Speaks k := by
    rcases List.mem_append.1 hl with hl | hl
    · exact hc.past l (List.mem_reverse.1 hl)
    · obtain ⟨opening, xs, hr, _⟩ := hc.slot l (Option.mem_toList.1 hl)
      exact hr.speaks
  obtain ⟨opening, xs, htr, hd⟩ := hspeaks
  refine ⟨opening, xs, htr, ?_, hd.unbroken, hd.commands, ?_⟩
  · rw [Link.sentOctets_eq, htr, said_octets]
  · intro i x hx hi
    obtain ⟨s, hs, hok, hq⟩ := hd.admits i x hx hi
    exact ⟨s, hs, fun hlt => by simpa [Status.isOk] using hok hlt, hq⟩

end Runs

end Schedule
end VoiceRelay
