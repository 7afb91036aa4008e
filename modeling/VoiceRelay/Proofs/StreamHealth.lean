import VoiceRelay.Observe.Watch
import VoiceRelay.Proofs.StreamStates

/-!
# The health flag of the event stream

The event stream publishes into a slot that keeps only the latest state, and an observer that runs at
its own pace copies what it finds there into the flag of the health report. States may be overwritten
before the observer reads them, the slot may go on while the observer still holds what it has read, and
the stream may be gone before the observer wakes. Whatever the order of all this, the flag never shows
more than what was published, and it ends up at what was published last.

**Design.** `Sound` is what every move keeps: where the observer stands, and what the flag or the value
that it holds is worth there. For the time after the stream has ended, `owed` lists the moves that the
observer has still to make; the next of them takes it off the list, and no other move touches the list.

**Results.**

- `run_published`: the slot holds what was published before it was closed.
- `run_sound`: what holds in every run.
- `run_ended`: the observer comes to its end when it makes the moves that it owes.
- `runFrom_over_last`: what a run of the event stream publishes last.
- `flag_follows_stream`: the flag over all interleavings.
-/

namespace VoiceRelay

namespace Watching

section Defs

/-- One round of the observer. -/
def round : List Move := [.wake, .read, .set]

/-- The states that some moves publish before they close the slot, oldest first. -/
def told (ms : List Move) : List StreamState :=
  (ms.takeWhile (· ≠ .close)).filterMap fun
    | .publish s => some s
    | _ => none

/-- What the observer has to do from waiting on, if nothing more is published. -/
def toCatchUp (w : Watching) : List Move :=
  if w.seen < w.version then round ++ [.wake] else [.wake]

/-- The moves that the observer has still to make if nothing more is published. -/
def owed (w : Watching) : List Move :=
  match w.observer with
  | .waiting => w.toCatchUp
  | .woken => [.read, .set, .wake]
  | .holding _ => .set :: w.toCatchUp
  | .ended => []

/-- The observer is not ahead of the slot. The flag, and a value that waits to be set, is that of a state
that was in the slot, and of the latest one if the observer has seen all. The observer ends only when
there is nothing more to see. -/
structure Sound (w : Watching) : Prop where
  behind : w.seen ≤ w.version
  flag : ∃ s ∈ w.states, w.health.eventStream = s.isConnected
  held : ∀ c, w.observer = .holding c → ∃ s ∈ w.states, c = s.isConnected
  current : ∀ c, w.observer = .holding c → w.seen = w.version → c = w.latest.isConnected
  settled : w.caughtUp = true → w.health.eventStream = w.latest.isConnected
  finished : w.observer = .ended → w.closed = true ∧ w.seen = w.version

end Defs

section Steps

variable {w : Watching}

theorem latest_mem_states (w : Watching) : w.latest ∈ w.states := by
  unfold latest states
  cases w.published with
  | nil => exact List.mem_singleton_self _
  | cons s past => exact List.mem_cons_self

theorem caughtUp_iff : w.caughtUp = true ↔
    w.seen = w.version ∧ (w.observer = .waiting ∨ w.observer = .ended) := by
  simp [caughtUp]

theorem start_sound (h : Health) : (start h).Sound where
  behind := Nat.le_refl 0
  flag := ⟨.disconnected, List.mem_singleton_self _, rfl⟩
  held := nofun
  current := nofun
  settled _ := rfl
  finished := nofun

theorem publish_sound (h : w.Sound) (s : StreamState) : (w.step (.publish s)).Sound := by
  by_cases hclosed : w.closed = true
  · have hstep : w.step (.publish s) = w := if_pos hclosed
    rwa [hstep]
  · have hstep : w.step (.publish s) = { w with published := s :: w.published } := if_neg hclosed
    rw [hstep]
    -- The new state is one that the observer has not seen, so it has not caught up.
    have hunseen : w.seen ≠ w.published.length + 1 := by
      have := h.behind
      unfold version at this
      omega
    obtain ⟨t, ht, hflag⟩ := h.flag
    exact
      { behind := Nat.le_succ_of_le h.behind
        flag := ⟨t, List.mem_cons_of_mem s ht, hflag⟩
        held := fun c hc => (h.held c hc).imp fun t ht => ⟨List.mem_cons_of_mem s ht.1, ht.2⟩
        current := fun c _ hseen => absurd hseen hunseen
        settled := fun hup => absurd (caughtUp_iff.1 hup).1 hunseen
        finished := fun hended => absurd (h.finished hended).1 hclosed }

theorem wake_sound (h : w.Sound) : (w.step .wake).Sound := by
  obtain ⟨published, closed, seen, observer, health⟩ := w
  cases observer with
  | woken | holding c | ended => exact h
  | waiting =>
    simp only [step]
    split
    · exact ⟨Nat.le_refl _, h.flag, nofun, nofun, fun hup => by simp [caughtUp] at hup, nofun⟩
    · next hseen =>
      have hall : seen = version _ := Nat.le_antisymm h.behind (Nat.not_lt.1 hseen)
      split
      · next hclosed =>
        exact ⟨h.behind, h.flag, nofun, nofun,
          fun _ => h.settled (caughtUp_iff.2 ⟨hall, Or.inl rfl⟩), fun _ => ⟨hclosed, hall⟩⟩
      · exact h

theorem read_sound (h : w.Sound) : (w.step .read).Sound := by
  obtain ⟨published, closed, seen, observer, health⟩ := w
  cases observer with
  | waiting | holding c | ended => exact h
  | woken =>
    refine ⟨Nat.le_refl _, h.flag, ?_, ?_, fun hup => by simp [step, caughtUp] at hup, nofun⟩
    · rintro c ⟨⟩
      exact ⟨_, latest_mem_states _, rfl⟩
    · rintro c ⟨⟩ -
      rfl

theorem set_sound (h : w.Sound) : (w.step .set).Sound := by
  obtain ⟨published, closed, seen, observer, health⟩ := w
  cases observer with
  | waiting | woken | ended => exact h
  | holding c =>
    exact ⟨h.behind, h.held c rfl, nofun, nofun,
      fun hup => h.current c rfl (caughtUp_iff.1 hup).1, nofun⟩

/-- **Every move keeps what the flag is worth.** -/
theorem step_sound (h : w.Sound) (m : Move) : (w.step m).Sound := by
  cases m with
  | publish s => exact publish_sound h s
  | close => exact ⟨h.behind, h.flag, h.held, h.current, h.settled, fun he => ⟨rfl, (h.finished he).2⟩⟩
  | wake => exact wake_sound h
  | read => exact read_sound h
  | set => exact set_sound h

theorem run_sound (h : w.Sound) (ms : List Move) : (w.run ms).Sound := by
  induction ms generalizing w with
  | nil => exact h
  | cons m ms ih => exact ih (step_sound h m)

end Steps

section Ending

variable {w : Watching}

/-- A slot that was closed stays as it is. -/
theorem step_closed (hclosed : w.closed = true) (m : Move) :
    (w.step m).closed = true ∧ (w.step m).published = w.published := by
  cases m with
  | publish s =>
    have hstep : w.step (.publish s) = w := if_pos hclosed
    rw [hstep]
    exact ⟨hclosed, rfl⟩
  | close => exact ⟨rfl, rfl⟩
  | wake =>
    by_cases hseen : w.seen < w.version
    all_goals cases hobserver : w.observer <;> simp [step, hobserver, hseen, hclosed]
  | read | set => cases hobserver : w.observer <;> simp [step, hobserver, hclosed]

theorem run_closed (hclosed : w.closed = true) (ms : List Move) :
    (w.run ms).closed = true ∧ (w.run ms).published = w.published := by
  induction ms generalizing w with
  | nil => exact ⟨hclosed, rfl⟩
  | cons m ms ih =>
    obtain ⟨hstill, hpublished⟩ := step_closed hclosed m
    rw [← hpublished]
    exact ih hstill

/-- Only publishing adds to the slot, and only closing closes it. -/
theorem step_quiet {m : Move} (hpublish : ∀ s, m ≠ .publish s) (hclose : m ≠ .close) :
    (w.step m).closed = w.closed ∧ (w.step m).published = w.published := by
  cases m with
  | publish s => exact absurd rfl (hpublish s)
  | close => exact absurd rfl hclose
  | wake =>
    by_cases hseen : w.seen < w.version <;> by_cases hclosed : w.closed = true
    all_goals cases hobserver : w.observer <;> simp [step, hobserver, hseen, hclosed]
  | read | set => cases hobserver : w.observer <;> simp [step, hobserver]

/-- **The slot holds what was published before it was closed**, and it is closed once that was done. -/
theorem run_published (hopen : w.closed = false) (ms : List Move) :
    (w.run ms).published.reverse = w.published.reverse ++ told ms ∧
      ((w.run ms).closed = true ↔ Move.close ∈ ms) := by
  induction ms generalizing w with
  | nil => simp [run, told, hopen]
  | cons m ms ih =>
    by_cases hclose : m = .close
    · subst hclose
      obtain ⟨hclosed, hsame⟩ := run_closed (w := w.step .close) rfl ms
      have hnow : (w.run (.close :: ms)).published = w.published := hsame
      have hlast : (w.run (.close :: ms)).closed = true := hclosed
      simp [hnow, hlast, told]
    · have hmem : Move.close ∈ m :: ms ↔ Move.close ∈ ms := by simp [Ne.symm hclose]
      rw [hmem]
      by_cases hpublish : ∃ s, m = .publish s
      · obtain ⟨s, rfl⟩ := hpublish
        have hstep : w.step (.publish s) = { w with published := s :: w.published } := by
          simp [step, hopen]
        obtain ⟨hnow, hlast⟩ := ih (w := w.step (.publish s)) (by rw [hstep]; exact hopen)
        refine ⟨hnow.trans ?_, hlast⟩
        simp [hstep, told]
      · obtain ⟨hstill, hsame⟩ := step_quiet (w := w) (fun s heq => hpublish ⟨s, heq⟩) hclose
        obtain ⟨hnow, hlast⟩ := ih (w := w.step m) (hstill.trans hopen)
        have htold : told (m :: ms) = told ms := by
          cases m with
          | publish s => exact absurd ⟨s, rfl⟩ hpublish
          | close => exact absurd rfl hclose
          | wake | read | set => rfl
        rw [htold, ← hsame]
        exact ⟨hnow, hlast⟩

/-- The move that the observer owes next is no longer owed once it was made; no other move counts. -/
theorem step_owed (hclosed : w.closed = true) (m : Move) :
    (w.step m).owed = if w.owed.head? = some m then w.owed.tail else w.owed := by
  obtain ⟨published, closed, seen, observer, health⟩ := w
  subst hclosed
  by_cases hseen : seen < published.length
  all_goals cases m <;> cases observer <;>
    simp [step, owed, toCatchUp, round, version, hseen]

theorem toCatchUp_sublist (w : Watching) :
    [.wake].Sublist w.toCatchUp ∧ w.toCatchUp.Sublist (round ++ [.wake]) := by
  unfold toCatchUp
  split <;> decide

theorem owed_eq_nil (h : w.owed = []) : w.observer = .ended := by
  have hwake := (toCatchUp_sublist w).1
  unfold owed at h
  cases hobserver : w.observer with
  | ended => rfl
  | waiting =>
    simp only [hobserver] at h
    rw [h] at hwake
    exact nomatch hwake
  | woken | holding c => simp [hobserver] at h

/-- **The observer comes to its end** once the stream has, when it makes the moves that it owes, whatever
happens in between. -/
theorem run_ended (hclosed : w.closed = true) {later : List Move} (h : w.owed.Sublist later) :
    (w.run later).observer = .ended ∧ (w.run later).published = w.published := by
  induction later generalizing w with
  | nil => exact ⟨owed_eq_nil (List.sublist_nil.1 h), rfl⟩
  | cons m later ih =>
    obtain ⟨hstill, hpublished⟩ := step_closed hclosed m
    have hrest : (w.step m).owed.Sublist later := by
      rw [step_owed hclosed m]
      generalize w.owed = owed at h
      split
      · exact h.tail
      · next hother =>
        cases h with
        | cons _ h => exact h
        | cons_cons _ h => exact absurd rfl hother
    rw [← hpublished]
    exact ih hstill hrest

/-- Two rounds and one more waking are enough. -/
theorem owed_sublist (w : Watching) : w.owed.Sublist (round ++ round ++ [.wake]) := by
  have hround : w.toCatchUp.Sublist (round ++ [.wake]) := (toCatchUp_sublist w).2
  unfold owed
  cases w.observer with
  | waiting => exact hround.trans (by decide)
  | woken => exact (by decide : [Move.read, .set, .wake].Sublist (round ++ round ++ [.wake]))
  | holding c => exact (hround.cons_cons Move.set).trans (by decide)
  | ended => exact List.nil_sublist _

end Ending

end Watching

namespace EventStream

variable {s : StreamSettings} {stopAt : Nat} {closed : Bool}

theorem attempt_verdict (stopAt : Nat) (closed : Bool) (a : Attempt) (r : StreamRun) :
    (attempt s stopAt closed a r).run.verdict = r.verdict := by
  unfold attempt
  simp only
  repeat' split
  all_goals rfl

/-- **A run that is over has published last that it is not connected.** -/
theorem runFrom_over_last {r : StreamRun} (hrunning : r.verdict = .running) (attempts : List Attempt)
    (hover : (runFrom s stopAt closed attempts r).verdict ≠ .running) :
    ∃ last past, (runFrom s stopAt closed attempts r).trace = .entry (.published last) :: past ∧
      last.isConnected = false := by
  have hstop (r : StreamRun) (now : Nat) : ∃ last past,
      (r.stop now).trace = .entry (.published last) :: past ∧ last.isConnected = false :=
    ⟨.disconnected, r.trace, rfl, rfl⟩
  induction attempts generalizing closed r with
  | nil =>
    unfold runFrom at hover ⊢
    split
    · exact hstop r _
    · next hlive =>
      rw [if_neg hlive] at hover
      exact absurd hrunning hover
  | cons a attempts ih =>
    have hverdict := attempt_verdict (s := s) stopAt closed a r
    unfold runFrom at hover ⊢
    split
    · exact hstop r _
    · next hlive =>
      rw [if_neg hlive] at hover
      generalize attempt s stopAt closed a r = done at *
      obtain ⟨result, shut, r'⟩ := done
      rcases result with _ | ⟨f | ⟨⟩⟩
      · exact hstop r' _
      · simp only at hover ⊢
        split
        · exact ⟨.failed, r'.trace, rfl, rfl⟩
        · next hretry =>
          rw [if_neg hretry] at hover
          split
          · exact hstop _ _
          · next hpause =>
            rw [if_neg hpause] at hover
            exact ih (hverdict.trans hrunning) hover
      · exact hstop r' _

end EventStream

namespace Watching

/-- **The flag follows the event stream.** Whatever the order in which the stream publishes and the
observer wakes, reads and sets: what was published before the slot was closed is what the slot was given; as
long as no state that counts as connected was published the flag is
down; it is always that of a state that was in the slot; and when the observer has caught up it is that of
the latest one. When a run of the event stream is over, whether it was stopped, ended well or ended with
a fault, and its slot is closed, two rounds of the observer and one more waking take the flag down for
good, whatever happens in between. -/
theorem flag_follows_stream (h : Health) (ms : List Move) :
    let w := (start h).run ms
    (w.published.reverse = told ms ∧ (w.closed = true ↔ Move.close ∈ ms)) ∧
    ((∀ s ∈ w.published, s.isConnected = false) → w.health.eventStream = false) ∧
    (∃ s ∈ w.states, w.health.eventStream = s.isConnected) ∧
    (w.caughtUp = true → w.health.eventStream = w.latest.isConnected) ∧
    ∀ (s : StreamSettings) (stopAt : Nat) (closed : Bool) (attempts : List Attempt) (later : List Move),
      (EventStream.run s stopAt closed attempts).verdict ≠ .running →
      w.published.reverse = EventStream.statesIn (EventStream.run s stopAt closed attempts).trace →
      w.closed = true → (round ++ round ++ [Move.wake]).Sublist later →
      (w.run later).observer = .ended ∧ (w.run later).health.eventStream = false := by
  intro w
  have hsound : w.Sound := run_sound (start_sound h) ms
  refine ⟨run_published rfl ms, fun hdown => ?_, hsound.flag, hsound.settled,
    fun s stopAt closed attempts later hover hstates hclosed hrounds => ?_⟩
  · obtain ⟨s, hs, hflag⟩ := hsound.flag
    rw [hflag]
    rcases List.mem_append.1 hs with hs | hs
    · exact hdown s hs
    · rw [List.mem_singleton.1 hs]
      rfl
  · obtain ⟨last, past, htrace, hdown⟩ := EventStream.runFrom_over_last rfl attempts hover
    rw [EventStream.run, htrace, EventStream.statesIn_published] at hstates
    have hpublished : w.published = last :: (EventStream.statesIn past).reverse := by
      rw [← List.reverse_reverse w.published, hstates, List.reverse_concat]
    obtain ⟨hended, hsame⟩ := run_ended hclosed ((owed_sublist w).trans hrounds)
    have hafter : (w.run later).Sound := run_sound hsound later
    refine ⟨hended, ?_⟩
    rw [hafter.settled (caughtUp_iff.2 ⟨(hafter.finished hended).2, Or.inr hended⟩), latest, hsame,
      hpublished]
    exact hdown

/-- The observer has read a connected state when the stream is told to stop and is gone: the flag is still up
then, and two rounds later it is down. -/
theorem flag_follows_stream_down :
    let s : StreamSettings := ⟨⟨"bot", "secret", "voice", 10011, 1⟩, 10000, 500, 2000⟩
    let lines := Utf8.encode "TS3\n\rHi\n\rok\n\rok\n\rok\n\r".toList
    let r := EventStream.run s 9000 false [⟨5, .ok ⟨[.data lines], none⟩⟩]
    let ms : List Move := [.publish .handshaking, .wake, .publish .handshaking, .publish .registered,
      .read, .publish .streaming, .publish .disconnected, .close, .set]
    let w := (start .fresh).run ms
    r.verdict ≠ .running ∧ w.published.reverse = EventStream.statesIn r.trace ∧ w.closed = true ∧
      w.health.eventStream = true ∧ (w.run (round ++ round ++ [.wake])).health.eventStream = false := by
  intro s lines r ms w
  have hover : r.verdict ≠ .running := by decide +kernel
  have hstates : w.published.reverse = EventStream.statesIn r.trace := by decide +kernel
  have hdown := (flag_follows_stream .fresh ms).2.2.2.2 s 9000 false _ _ hover hstates rfl
    (List.Sublist.refl _)
  exact ⟨hover, hstates, rfl, by decide +kernel, hdown.2⟩

end Watching
end VoiceRelay
