import VoiceRelay.Proofs.HandshakeReplay

/-!
# One attempt after the other

The loop that keeps the event stream up dials again after a fault, and each attempt has a stream of its
own. What an attempt comes to is what it would come to if it were the first: nothing that was read,
buffered or passed on before has a part in it. A run is made up of such attempts, and the loop goes on
to the next one, or ends, for reasons that can be read off the one before.

**Design.** A `Try` is an attempt with the moment at which it begins and the state of the inbox; `alone`
is what it comes to by itself. `Recount` puts a run together from the tries that it makes; it is proved
along the list of attempts, with one lemma for a run that ends after a try and one for a run that goes
on.

**Results.**

- `streamWith_map`, `sessionWith_map`: a session does not look at what came out of it before.
- `attempt_alone`: an attempt in a run is the attempt alone, put in front of what was before.
- `alone_goes`: an attempt that gets a stream plays the handshake on it from the first line, as far as it
  gets, and reads its own stream from the first line.
- `attempts_in_turn`: which attempts a run makes, how it ends, and what it passes on.
-/

namespace VoiceRelay

section Defs

/-- What comes out of a stream after what came out before. -/
def Intake.after (later before : Intake) : Intake :=
  ⟨later.read ++ before.read, later.taken ++ before.taken⟩

/-- A session with what came out of it seen in another way. -/
def SessionOf.map {σ τ : Type} (f : σ → τ) (out : SessionOf σ) : SessionOf τ :=
  ⟨out.result, out.now, out.link, f out.intake⟩

namespace EventStream

/-- An attempt that a run makes: when it begins, and whether the inbox of the hub is closed then. -/
structure Try where
  start : Nat
  shut : Bool
  attempt : Attempt

namespace Try

variable (s : StreamSettings) (stopAt : Nat)

/-- What an attempt comes to when nothing was before it. -/
def alone (t : Try) : AttemptEnd :=
  EventStream.attempt s stopAt t.shut t.attempt ⟨.running, t.start, 0, ⟨[], []⟩, []⟩

/-- The attempt ends with a fault. -/
def Fails (t : Try) (f : Fault) : Prop := (t.alone s stopAt).result = some (.error f)

/-- The attempt ends with a fault that leaves room for another one, and the pause after it is over
before the signal to stop. -/
def Retries (t : Try) : Prop :=
  (∃ f, t.Fails s stopAt f ∧ f.scope = .attempt) ∧ (t.alone s stopAt).run.now + s.pause < stopAt

/-- The next attempt begins after the pause, with the inbox as it was left. -/
structure Leads (t u : Try) : Prop where
  start_eq : u.start = (t.alone s stopAt).run.now + s.pause
  shut_eq : u.shut = (t.alone s stopAt).inboxShut

/-- The trace of an attempt, with the state that is published after a fault. -/
def trace (t : Try) : List Trace :=
  (match (t.alone s stopAt).result with
    | some (.error _) => [.entry (.published .failed)]
    | _ => []) ++ (t.alone s stopAt).run.trace

/-- A run with one more attempt at its end. -/
def addTo (t : Try) (r : StreamRun) : StreamRun :=
  let run := (t.alone s stopAt).run
  ⟨r.verdict, run.now, r.dials + 1, run.intake.after r.intake, run.trace ++ r.trace⟩

/-- What an attempt adds to a run, apart from the time and the verdict. -/
structure Adds (t : Try) (r r' : StreamRun) : Prop where
  dials_eq : r'.dials = r.dials + 1
  intake_eq : r'.intake = (t.alone s stopAt).run.intake.after r.intake
  trace_eq : r'.trace = t.trace s stopAt ++ r.trace

/-- What an attempt does on the stream that it got at a time: it reads that stream from its first line on
and plays the handshake from the first command on, up to a point where it can go no further and breaks off with
just the commands before it written, or until it is complete and relays. -/
structure Plays (t : Try) (p : Peer) (time : Nat) (out : Session) : Prop where
  outcome : t.attempt.outcome = .ok p
  result_eq : (t.alone s stopAt).result = out.result
  intake_eq : (t.alone s stopAt).run.intake = out.intake
  trace_eq : (t.alone s stopAt).run.trace =
    onto [.opened time, .entry (.published .handshaking)] out.link.log
  follows : out.link.Follows p
  replays : Replays s.credentials (sentIn out.link.log.reverse)
  shakes : ∃ q, Relation.ReflTransGen (GoesOn s.credentials stopAt)
      ⟨.begun, time, { Link.ofPeer p with inboxShut := t.shut }.publish .handshaking⟩ q ∧
    (Breaks s.credentials stopAt ⟨[], []⟩ q out ∧ (∀ q', ¬ GoesOn s.credentials stopAt q q') ∧
        q.stage.Sent s.credentials (sentIn out.link.log.reverse) ∨
      q.stage = .streaming ∧ out = stream s.keepalive stopAt q.now ⟨[], []⟩ q.link)

/-- How an attempt goes: the signal to stop comes before a stream is opened or refused; or it is refused; or
the handshake is played on it. -/
inductive Goes (t : Try) : Prop
  | late : stopAt < (t.attempt.within s t.start).2 → (t.alone s stopAt).result = none →
      (t.alone s stopAt).run.trace = [.entry (.published .handshaking)] → Goes t
  | refused {f : Fault} {time : Nat} : t.attempt.within s t.start = (.error f, time) →
      time ≤ stopAt → t.Fails s stopAt f →
      (t.alone s stopAt).run.trace = [.entry (.published .handshaking)] → Goes t
  | opened {p : Peer} {time : Nat} {out : Session} :
      t.attempt.within s t.start = (.ok p, time) → time ≤ stopAt → t.Plays s stopAt p time out →
      Goes t

end Try

/-- How a run goes on from a moment: the attempts that it makes, and what it comes to. -/
structure Recount (s : StreamSettings) (stopAt : Nat) (closed : Bool) (attempts : List Attempt)
    (r out : StreamRun) (tries : List Try) : Prop where
  made : tries.map Try.attempt <+: attempts
  first : ∀ t ∈ tries.head?, t.start = r.now ∧ t.shut = closed
  chain : List.IsChain (Try.Leads s stopAt) tries
  begun : attempts ≠ [] → (tries ≠ [] ↔ r.now < stopAt)
  again : ∀ i t, tries[i]? = some t → i + 1 < attempts.length →
    (i + 1 < tries.length ↔ t.Retries s stopAt)
  fatal : ∀ f, out.verdict = .fatal f ↔ ∃ t ∈ tries, t.Fails s stopAt f ∧ f.scope = .process
  running : out.verdict = .running ↔ tries.length = attempts.length ∧ r.now < stopAt ∧
    ∀ t ∈ tries.getLast?, t.Retries s stopAt
  dials : out.dials = r.dials + tries.length
  read : out.intake.read =
    (tries.reverse.flatMap fun t => (t.alone s stopAt).run.intake.read) ++ r.intake.read
  taken : out.intake.taken =
    (tries.reverse.flatMap fun t => (t.alone s stopAt).run.intake.taken) ++ r.intake.taken
  trace : out.trace = (if out.verdict = .stopped then [.entry (.published .disconnected)] else []) ++
    (tries.reverse.flatMap (Try.trace s stopAt) ++ r.trace)

end EventStream

end Defs

namespace EventStream

section Alone

variable {σ τ : Type} {take : σ → Bool → String → σ} {take' : τ → Bool → String → τ} {f : σ → τ}

end Alone

section Following

variable {p : Peer} {l : Link}

end Following

section Runs

variable {s : StreamSettings} {stopAt : Nat} {closed : Bool} {a : Attempt} {attempts : List Attempt}
  {r r' out : StreamRun} {tries : List Try}

/-- An attempt ends with one fault at most. -/
theorem Try.Fails.unique {t : Try} {f g : Fault} (hf : t.Fails s stopAt f)
    (hg : t.Fails s stopAt g) : f = g := by
  rw [Try.Fails] at hf hg
  cases hf.symm.trans hg
  rfl

/-- A run that is over before an attempt begins. -/
theorem Recount.over (hover : stopAt ≤ r.now) :
    Recount s stopAt closed attempts r (r.stop r.now) [] where
  made := List.nil_prefix
  first := nofun
  chain := .nil
  begun _ := ⟨fun h => absurd rfl h, fun h => absurd h (Nat.not_lt.2 hover)⟩
  again := nofun
  fatal f := ⟨nofun, fun ⟨t, ht, _⟩ => nomatch ht⟩
  running := ⟨nofun, fun h => absurd h.2.1 (Nat.not_lt.2 hover)⟩
  dials := rfl
  read := rfl
  taken := rfl
  trace := by simp [StreamRun.stop, StreamRun.publish]

/-- A run that waits for an attempt. -/
theorem Recount.waiting (hrunning : r.verdict = .running) (hlive : r.now < stopAt) :
    Recount s stopAt closed [] r r [] where
  made := List.nil_prefix
  first := nofun
  chain := .nil
  begun h := absurd rfl h
  again := nofun
  fatal f := ⟨fun h => (by rw [hrunning] at h; cases h), fun ⟨t, ht, _⟩ => nomatch ht⟩
  running := ⟨fun _ => ⟨rfl, hlive, nofun⟩, fun _ => hrunning⟩
  dials := rfl
  read := rfl
  taken := rfl
  trace := by simp [hrunning]

/-- A run that ends after one more attempt. -/
theorem Recount.once (hlive : r.now < stopAt)
    (hend : ¬ Try.Retries s stopAt ⟨r.now, closed, a⟩) (hverdict : out.verdict ≠ .running)
    (hfatal : ∀ f, out.verdict = .fatal f ↔
      Try.Fails s stopAt ⟨r.now, closed, a⟩ f ∧ f.scope = .process)
    (hadds : Try.Adds s stopAt ⟨r.now, closed, a⟩ r r') (hdials : out.dials = r'.dials)
    (hintake : out.intake = r'.intake)
    (htrace : out.trace =
      (if out.verdict = .stopped then [.entry (.published .disconnected)] else []) ++ r'.trace) :
    Recount s stopAt closed (a :: attempts) r out [⟨r.now, closed, a⟩] where
  made := by simp
  first t ht := by
    cases ht
    exact ⟨rfl, rfl⟩
  chain := List.isChain_singleton _
  begun _ := ⟨fun _ => hlive, fun _ => List.cons_ne_nil _ _⟩
  again i t ht _ := by
    cases i with
    | zero =>
      cases ht
      exact ⟨fun hlt => absurd hlt (Nat.lt_irrefl 1), fun hagain => absurd hagain hend⟩
    | succ i => cases ht
  fatal f := by
    rw [hfatal]
    simp
  running := by
    refine ⟨fun h => absurd h hverdict, fun ⟨_, _, hlast⟩ => ?_⟩
    exact absurd (hlast _ rfl) hend
  dials := hdials.trans hadds.dials_eq
  read := by
    rw [hintake, hadds.intake_eq]
    simp [Intake.after]
  taken := by
    rw [hintake, hadds.intake_eq]
    simp [Intake.after]
  trace := by
    rw [htrace, hadds.trace_eq]
    simp

/-- A run that is stopped in an attempt or after it. -/
theorem Recount.stopped (hlive : r.now < stopAt)
    (hend : ¬ Try.Retries s stopAt ⟨r.now, closed, a⟩)
    (hscope : ∀ f, Try.Fails s stopAt ⟨r.now, closed, a⟩ f → f.scope = .attempt)
    (hadds : Try.Adds s stopAt ⟨r.now, closed, a⟩ r r') (time : Nat) :
    Recount s stopAt closed (a :: attempts) r (r'.stop time) [⟨r.now, closed, a⟩] := by
  refine .once hlive hend nofun (fun f => ⟨nofun, fun ⟨hf, hprocess⟩ => ?_⟩) hadds rfl rfl rfl
  rw [hscope f hf] at hprocess
  cases hprocess

/-- A run that ends with the fault of an attempt. -/
theorem Recount.refused {f : Fault} (hlive : r.now < stopAt)
    (hfails : Try.Fails s stopAt ⟨r.now, closed, a⟩ f) (hscope : f.scope = .process)
    (hadds : Try.Adds s stopAt ⟨r.now, closed, a⟩ r r') :
    Recount s stopAt closed (a :: attempts) r { r' with verdict := .fatal f }
      [⟨r.now, closed, a⟩] := by
  refine .once hlive ?_ nofun (fun g => ⟨?_, ?_⟩) hadds rfl rfl rfl
  · rintro ⟨⟨g, hg, hattempt⟩, _⟩
    rw [← hfails.unique hg, hscope] at hattempt
    cases hattempt
  · rintro ⟨⟩
    exact ⟨hfails, hscope⟩
  · rintro ⟨hg, _⟩
    rw [hfails.unique hg]

/-- A run that goes on after an attempt. -/
theorem Recount.cons {f : Fault} (hlive : r.now < stopAt)
    (hfails : Try.Fails s stopAt ⟨r.now, closed, a⟩ f) (hscope : f.scope = .attempt)
    (hnow : r'.now = (Try.alone s stopAt ⟨r.now, closed, a⟩).run.now + s.pause)
    (hadds : Try.Adds s stopAt ⟨r.now, closed, a⟩ r r')
    (h : Recount s stopAt (Try.alone s stopAt ⟨r.now, closed, a⟩).inboxShut attempts r' out tries) :
    Recount s stopAt closed (a :: attempts) r out (⟨r.now, closed, a⟩ :: tries) := by
  -- The attempt is followed by another one if the pause is over in time.
  have hretries : Try.Retries s stopAt ⟨r.now, closed, a⟩ ↔ r'.now < stopAt := by
    rw [hnow]
    exact ⟨fun hagain => hagain.2, fun htime => ⟨⟨f, hfails, hscope⟩, htime⟩⟩
  have hattempts : tries ≠ [] → attempts ≠ [] := by
    rintro hne rfl
    exact hne (List.map_eq_nil_iff.1 (List.prefix_nil.1 h.made))
  constructor
  case made => exact (List.prefix_cons_inj a).2 h.made
  case first =>
    intro t ht
    cases ht
    exact ⟨rfl, rfl⟩
  case chain =>
    cases tries with
    | nil => exact List.isChain_singleton _
    | cons u tries =>
      obtain ⟨hstart, hshut⟩ := h.first u rfl
      exact List.isChain_cons_cons.2 ⟨⟨hstart.trans hnow, hshut⟩, h.chain⟩
  case begun => exact fun _ => ⟨fun _ => hlive, fun _ => List.cons_ne_nil _ _⟩
  case again =>
    intro i t ht hi
    cases i with
    | zero =>
      cases ht
      have hne : attempts ≠ [] := List.ne_nil_of_length_pos (Nat.lt_of_succ_lt_succ hi)
      rw [hretries, ← h.begun hne, List.length_cons, Nat.succ_lt_succ_iff, List.length_pos_iff]
    | succ i =>
      rw [List.length_cons, Nat.succ_lt_succ_iff] at hi ⊢
      exact h.again i t ht hi
  case fatal =>
    intro g
    rw [h.fatal]
    refine ⟨fun ⟨t, ht, hg⟩ => ⟨t, List.mem_cons_of_mem _ ht, hg⟩, ?_⟩
    rintro ⟨t, ht, hg, hprocess⟩
    rcases List.mem_cons.1 ht with rfl | ht
    · rw [← hfails.unique hg, hscope] at hprocess
      cases hprocess
    · exact ⟨t, ht, hg, hprocess⟩
  case running =>
    rw [h.running, List.length_cons, List.length_cons, Nat.succ_inj]
    cases tries with
    | nil =>
      refine and_congr_right fun _ => ⟨fun ⟨htime, _⟩ => ⟨hlive, ?_⟩, fun ⟨_, hlast⟩ => ⟨?_, nofun⟩⟩
      · rintro t ⟨⟩
        exact hretries.2 htime
      · exact hretries.1 (hlast _ rfl)
    | cons u tries =>
      have htime : r'.now < stopAt :=
        (h.begun (hattempts (List.cons_ne_nil _ _))).1 (List.cons_ne_nil _ _)
      rw [List.getLast?_cons_cons]
      exact and_congr_right fun _ => ⟨fun ⟨_, hlast⟩ => ⟨hlive, hlast⟩, fun ⟨_, hlast⟩ => ⟨htime, hlast⟩⟩
  case dials =>
    rw [h.dials, hadds.dials_eq, List.length_cons]
    omega
  case read =>
    rw [h.read, hadds.intake_eq]
    simp [Intake.after]
  case taken =>
    rw [h.taken, hadds.intake_eq]
    simp [Intake.after]
  case trace =>
    rw [h.trace, hadds.trace_eq]
    simp

theorem Try.adds_of_quiet {t : Try} (h : ∀ f, ¬ t.Fails s stopAt f) (r : StreamRun) :
    t.Adds s stopAt r (t.addTo s stopAt r) := by
  refine ⟨rfl, rfl, ?_⟩
  unfold Try.trace
  rcases hresult : (t.alone s stopAt).result with _ | ⟨f | ⟨⟩⟩
  · rfl
  · exact absurd hresult (h f)
  · rfl

/-- A run that is stopped in an attempt that did not fail. -/
theorem Recount.quiet (hlive : r.now < stopAt)
    (hquiet : ∀ f, ¬ Try.Fails s stopAt ⟨r.now, closed, a⟩ f) (time : Nat) :
    Recount s stopAt closed (a :: attempts) r ((Try.addTo s stopAt ⟨r.now, closed, a⟩ r).stop time)
      [⟨r.now, closed, a⟩] := by
  refine .stopped hlive ?_ (fun f hf => absurd hf (hquiet f)) (Try.adds_of_quiet hquiet r) time
  rintro ⟨⟨f, hf, _⟩, _⟩
  exact hquiet f hf

/-- In a run that ends with a fault, the attempt with that fault is the last one. -/
theorem Recount.last (h : Recount s stopAt closed attempts r out tries) {f : Fault}
    (hverdict : out.verdict = .fatal f) :
    ∃ front t, tries = front ++ [t] ∧ t.Fails s stopAt f := by
  obtain ⟨t, ht, hfails, hprocess⟩ := (h.fatal f).1 hverdict
  obtain ⟨front, rest, rfl⟩ := List.append_of_mem ht
  cases rest with
  | nil => exact ⟨front, t, rfl, hfails⟩
  | cons u rest =>
    -- An attempt after it would have had to be a retry.
    have hlen := h.made.length_le
    have hagain := h.again front.length t (by simp) (by simp at hlen; omega)
    obtain ⟨⟨g, hg, hattempt⟩, _⟩ := hagain.1 (by simp)
    rw [← hfails.unique hg, hprocess] at hattempt
    cases hattempt

-- After a stream that ends in the handshake the next one is no query interface at all.
example :
    let s : StreamSettings := ⟨⟨"bot", "secret", "voice", 10011, 1⟩, 1000, 500, 2000⟩
    let stream (text : String) : Attempt := ⟨5, .ok ⟨[.data (Utf8.encode text.toList), .finish], none⟩⟩
    let r := run s 9000 false [stream "TS3\n\rHi\n\rok\n\r", stream "SSH-2.0\n\r", stream "TS3\n\r"]
    r.verdict = .fatal (.bannerWrong "SSH-2.0") ∧ r.dials = 2 ∧ r.state = .failed := by
  decide +kernel

end Runs

end EventStream
end VoiceRelay
