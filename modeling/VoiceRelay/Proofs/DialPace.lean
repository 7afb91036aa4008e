import VoiceRelay.Query.Reconnect
import VoiceRelay.Proofs.Clock

/-!
# How often the stream is dialled

Between two attempts to open the event stream there is the pause that was set. However an attempt ends, and
however long it takes, the next one begins no earlier than the pause allows, so the number of attempts is
bounded by the time that has passed. If the pause is zero nothing bounds it: a voice server that refuses
at once is dialled any number of times in the same moment.

**Design.** Time does not run backwards in a session, by the parts of a session; what an attempt adds to a
run is then one more attempt and some time, and the run is followed along the list of attempts.

**Results.**

- `session_later`: a session ends no earlier than it began, and no later than the signal to stop.
- `run_dials_le`: as many attempts as pauses have passed, and one more.
- `run_refused`: when every attempt is refused at once, the pauses are all the time that passes.
-/

namespace VoiceRelay

/-- A run after an attempt that was refused at once, and the pause after it. -/
def StreamRun.afterRefusal (r : StreamRun) (pause : Nat) : StreamRun :=
  { (r.publish .handshaking).publish .failed with dials := r.dials + 1, now := r.now + pause }

namespace EventStream

section Sessions

variable {stopAt now : Nat}

theorem register_later (l : Link) (texts : List String)
    (h : Deadline.before (some stopAt) now = false) :
    Deadline.Later (some stopAt) now (register stopAt now l texts).now := by
  induction texts generalizing now l with
  | nil => exact .refl h
  | cons text texts ih =>
    have hfirst := l.acknowledged_later text h
    unfold register
    simp only
    split
    · exact hfirst.trans (ih _ hfirst.pending)
    · exact hfirst
    · exact hfirst

/-- While lines are relayed, each of them is waited for until the next sign of life is due. -/
theorem hear_later_of_eq {l l' : Link} {due now' : Nat} {heard : Heard} (hdue : now ≤ due)
    (h : Deadline.before (some stopAt) now = false)
    (heq : l.hear (some (min due stopAt)) now = (heard, now', l')) :
    Deadline.Later (some stopAt) now now' := by
  have hstop : now ≤ stopAt := by simpa [Deadline.before] using h
  have hhear := l.hear_later (Deadline.before_of_le (Nat.le_min.2 ⟨hdue, hstop⟩))
  rw [heq] at hhear
  have hpending : now' ≤ min due stopAt := by simpa [Deadline.before] using hhear.pending
  exact ⟨hhear.le, Deadline.before_of_le (Nat.le_trans hpending (Nat.min_le_right ..))⟩

theorem streamWith_later {σ : Type} (take : σ → Bool → String → σ) (beat : Nat) (x : σ) (l : Link)
    (h : Deadline.before (some stopAt) now = false) :
    Deadline.Later (some stopAt) now (streamWith take beat stopAt now x l).now := by
  have hdue {now : Nat} (hintime : ¬ stopAt < now + max 1 beat) :
      Deadline.Later (some stopAt) now (now + max 1 beat) :=
    ⟨Nat.le_add_right .., Deadline.before_of_le (Nat.le_of_not_lt hintime)⟩
  fun_induction streamWith take beat stopAt now x l with
  | case1 => exact Deadline.later_getD h
  | case2 now x l due now' l' heq hintime => exact hdue hintime
  | case3 now x l due now' l' heq hintime l'' hsent ih =>
    exact (hdue hintime).trans (ih (hdue hintime).pending)
  | case4 now x l due now' l' heq | case5 now x l due t now' l' heq
  | case7 now x l due text now' l' heq => exact hear_later_of_eq (Nat.le_add_right ..) h heq
  | case6 now x l due text now' l' heq htext ih =>
    have hline := hear_later_of_eq (Nat.le_add_right ..) h heq
    exact hline.trans (ih hline.pending)
  | case8 now x l due text now' l' heq message htext x' hopen ih =>
    have hline := hear_later_of_eq (Nat.le_add_right ..) h heq
    exact hline.trans (ih hline.pending)

theorem registeredWith_later {σ : Type} (take : σ → Bool → String → σ) (s : StreamSettings) (x : σ)
    (l : Link) (h : Deadline.before (some stopAt) now = false) :
    Deadline.Later (some stopAt) now (registeredWith take s stopAt now x l).now := by
  unfold registeredWith
  have hknown := register_later l (handshake s.credentials) h
  simp only
  generalize register stopAt now l (handshake s.credentials) = known at *
  rcases known.result with _ | f | ⟨⟩
  · exact hknown
  · exact hknown
  · exact hknown.trans (streamWith_later _ _ _ _ hknown.pending)

/-- **A session ends no earlier than it began**, and no later than the signal to stop. -/
theorem session_later (s : StreamSettings) (x : Intake) (l : Link)
    (h : Deadline.before (some stopAt) now = false) :
    Deadline.Later (some stopAt) now (session s stopAt now x l).now := by
  unfold session sessionWith
  have hgreet := (l.publish .handshaking).greet_later h
  simp only
  generalize (l.publish .handshaking).greet (some stopAt) now = greeted at *
  rcases greeted.result with _ | f | ⟨⟩
  · exact hgreet
  · exact hgreet
  · exact hgreet.trans (registeredWith_later _ _ _ _ hgreet.pending)

end Sessions

section Runs

variable {s : StreamSettings} {stopAt : Nat}

/-- **What an attempt adds to a run**: one more attempt, and time that does not run backwards. -/
theorem attempt_adds (closed : Bool) (a : Attempt) {r : StreamRun} (h : r.now ≤ stopAt) :
    (attempt s stopAt closed a r).run.dials = r.dials + 1 ∧
      r.now ≤ (attempt s stopAt closed a r).run.now ∧
      (attempt s stopAt closed a r).run.now ≤ stopAt := by
  have hopened : r.now ≤ (a.within s r.now).2 := by
    unfold Attempt.within
    split <;> exact Nat.le_add_right ..
  unfold attempt
  simp only
  split
  · exact ⟨rfl, h, Nat.le_refl stopAt⟩
  · next hintime =>
    have hearly : (a.within s r.now).2 ≤ stopAt := Nat.le_of_not_lt hintime
    split
    · exact ⟨rfl, hopened, hearly⟩
    · have hsession (l : Link) := session_later s r.intake l (Deadline.before_of_le hearly)
      have hstop (l : Link) : (session s stopAt (a.within s r.now).2 r.intake l).now ≤ stopAt := by
        simpa [Deadline.before] using (hsession l).pending
      exact ⟨rfl, Nat.le_trans hopened (hsession _).le, hstop _⟩

/-- **The attempts that a run adds are paced**: each waits for its pause. -/
theorem runFrom_dials_le (closed : Bool) (attempts : List Attempt) {r : StreamRun}
    (h : r.dials * s.pause ≤ r.now) :
    (runFrom s stopAt closed attempts r).dials * s.pause ≤
      (runFrom s stopAt closed attempts r).now + s.pause := by
  induction attempts generalizing closed r with
  | nil =>
    unfold runFrom
    split <;> exact Nat.le_add_right_of_le h
  | cons a attempts ih =>
    unfold runFrom
    split
    · exact Nat.le_add_right_of_le h
    · next hlive =>
      obtain ⟨hdials, hnow, hstop⟩ := attempt_adds (s := s) closed a (Nat.le_of_not_le hlive)
      generalize attempt s stopAt closed a r = done at *
      obtain ⟨result, shut, r'⟩ := done
      -- The pauses after the attempts before this one were over when it began.
      have hpauses : r'.dials * s.pause ≤ r'.now + s.pause := by
        rw [hdials, Nat.succ_mul]
        exact Nat.add_le_add_right (Nat.le_trans h hnow) s.pause
      have hstopped : r'.dials * s.pause ≤ stopAt + s.pause :=
        Nat.le_trans hpauses (Nat.add_le_add_right hstop s.pause)
      rcases result with _ | ⟨f | ⟨⟩⟩
      · exact hstopped
      · simp only
        split
        · exact hpauses
        · split
          · exact hstopped
          · exact ih shut hpauses
      · exact hpauses

/-- **As many attempts as pauses have passed, and one more.** -/
theorem run_dials_le (s : StreamSettings) (stopAt : Nat) (closed : Bool) (attempts : List Attempt) :
    (run s stopAt closed attempts).dials * s.pause ≤
      (run s stopAt closed attempts).now + s.pause :=
  runFrom_dials_le closed attempts (Nat.le_of_eq (Nat.zero_mul _))

theorem attempt_refused (closed : Bool) (f : Fault) {r : StreamRun} (h : r.now < stopAt) :
    attempt s stopAt closed ⟨0, .error f⟩ r =
      ⟨some (.error f), closed, { r.publish .handshaking with dials := r.dials + 1 }⟩ := by
  have hopen : ¬ stopAt < r.now := Nat.not_lt.2 (Nat.le_of_lt h)
  simp [attempt, Attempt.within, StreamRun.publish, hopen]

/-- After an attempt that was refused at once a run goes on when the pause is over. -/
theorem runFrom_cons_refused (closed : Bool) {f : Fault} (hf : f.isFatal = false)
    (attempts : List Attempt) {r : StreamRun} (hlive : r.now < stopAt)
    (hpause : r.now + s.pause ≤ stopAt) :
    runFrom s stopAt closed (⟨0, .error f⟩ :: attempts) r =
      runFrom s stopAt closed attempts (r.afterRefusal s.pause) := by
  have hgoes : ¬ stopAt ≤ r.now := Nat.not_le.2 hlive
  have hwaits : ¬ stopAt < r.now + s.pause := Nat.not_lt.2 hpause
  rw [runFrom, if_neg hgoes, attempt_refused closed f hlive]
  simp [hf, StreamRun.publish, StreamRun.afterRefusal, hwaits]

theorem runFrom_refused (closed : Bool) {f : Fault} (hf : f.isFatal = false) (n : Nat) {r : StreamRun}
    (h : r.now + n * s.pause < stopAt) :
    let out := runFrom s stopAt closed (List.replicate n ⟨0, .error f⟩) r
    out.dials = r.dials + n ∧ out.now = r.now + n * s.pause ∧ out.verdict = r.verdict := by
  induction n generalizing r with
  | zero =>
    have hlive : ¬ stopAt ≤ r.now := by omega
    simp [runFrom, hlive]
  | succ n ih =>
    rw [Nat.succ_mul] at h ⊢
    rw [List.replicate_succ, runFrom_cons_refused closed hf _ (by omega) (by omega)]
    have hnow : (r.afterRefusal s.pause).now = r.now + s.pause := rfl
    have hdials : (r.afterRefusal s.pause).dials = r.dials + 1 := rfl
    obtain ⟨hdials', hnow', hverdict⟩ := @ih (r.afterRefusal s.pause) (by omega)
    exact ⟨by omega, by omega, hverdict⟩

/-- **When every attempt is refused at once, the pauses are all the time that passes.** -/
theorem run_refused (s : StreamSettings) {stopAt : Nat} (closed : Bool) {f : Fault}
    (hf : f.isFatal = false) (n : Nat) (h : n * s.pause < stopAt) :
    let r := run s stopAt closed (List.replicate n ⟨0, .error f⟩)
    r.dials = n ∧ r.now = n * s.pause ∧ r.verdict = .running := by
  have hrun := runFrom_refused (r := ⟨.running, 0, 0, ⟨[], []⟩, []⟩) closed hf n
    (Nat.lt_of_le_of_lt (Nat.le_of_eq (Nat.zero_add _)) h)
  simpa only [run, Nat.zero_add] using hrun

end Runs

end EventStream
end VoiceRelay
