import VoiceRelay.Proofs.Clock
import VoiceRelay.Proofs.Serving
import VoiceRelay.Proofs.SharedConnection
import Mathlib.Data.List.Induction

/-!
# Callers together and in turn

Callers that begin together with one request each are served in the order in which they began, and
each gets what it would have got if it had begun when the one before it had ended. The time limit of a
reply is counted from the moment at which its caller has the connection, so waiting for the others
uses none of it up.

**Design.** `settle` is what one request comes to when nobody else waits, `settleAll` is what several
of them come to one after the other. `Midway` is the invariant of a schedule in which some of the
callers have gone on and the others still wait in the order in which they began.

**Results.**

- `Midway.step`, `run_midway`: a step serves the caller that waits longest; a run serves all of them.
- `together_linearises`: callers that begin together come to what they come to in turn.
-/

namespace VoiceRelay

namespace Schedule

section Defs

/-- A caller with one request, who waits as long as it takes. -/
def asking (r : Request) : Job × Deadline := (.request r, none)

/-- Some requests one after the other, each begun when the one before it has ended. -/
def inTurn (c : Shared) : List Request → List Ending × Shared
  | [] => ([], c)
  | r :: rs =>
    let first := together c [asking r]
    let rest := inTurn first.2 rs
    (first.1 ++ rest.1, rest.2)

/-- What one request comes to when nobody else waits. A request without a command ends when it
begins. -/
def settle (c : Shared) (r : Request) : Ending × Shared :=
  let call := c.client.serve none (max c.now c.free) r
  (endingOf call.result, ⟨if r.waits then call.now else c.now, call.now, call.client⟩)

/-- What some requests come to one after the other. -/
def settleAll (c : Shared) : List Request → List Ending × Shared
  | [] => ([], c)
  | r :: rs =>
    let rest := settleAll (settle c r).2 rs
    ((settle c r).1 :: rest.1, rest.2)

/-- A caller that has just begun with a request. -/
def caller (begun : Nat) (r : Request) : Task := ⟨(Job.request r).start begun, none⟩

/-- A caller that has gone on, with the time at which it did. -/
def gone (e : Nat × Ending) : Task := ⟨.ended e.1 e.2, none⟩

/-- When the last of some callers went on, none of them before `begun`. -/
def lastGone (begun : Nat) (ends : List (Nat × Ending)) : Nat :=
  ends.foldl (fun time e => max time e.1) begun

/-- The positions of the callers that wait, the first of all being at `k`. -/
def waiting (k : Nat) (rs : List Request) : List Nat :=
  (rs.zipIdx k).filterMap fun (r, i) => if r.waits then some i else none

/-- Some callers have gone on, the others wait in the order in which they began. -/
structure Midway (begun : Nat) (ends : List (Nat × Ending)) (rs : List Request) (s : Schedule) :
    Prop where
  tasks_eq : s.tasks = ends.map gone ++ rs.map (caller begun)
  queue_eq : s.queue = waiting ends.length rs
  reached : lastGone begun ends ≤ s.now

end Defs

section Callers

variable {begun : Nat} {ends : List (Nat × Ending)} {r : Request} {rs : List Request}
  {s : Schedule}

theorem lastGone_concat (begun : Nat) (ends : List (Nat × Ending)) (e : Nat × Ending) :
    lastGone begun (ends ++ [e]) = max (lastGone begun ends) e.1 := by
  unfold lastGone
  rw [List.foldl_append]
  rfl

theorem le_lastGone (begun : Nat) (ends : List (Nat × Ending)) : begun ≤ lastGone begun ends := by
  induction ends using List.reverseRecOn with
  | nil => exact Nat.le_refl begun
  | append_singleton ends e ih =>
    rw [lastGone_concat]
    exact Nat.le_trans ih (Nat.le_max_left ..)

theorem waiting_cons (k : Nat) (r : Request) (rs : List Request) :
    waiting k (r :: rs) = (if r.waits then [k] else []) ++ waiting (k + 1) rs := by
  unfold waiting
  rw [List.zipIdx_cons, List.filterMap_cons]
  by_cases h : r.waits = true
  · simp [h]
  · simp [h]

theorem caller_waits (h : r.waits = true) : caller begun r = ⟨.asking r, none⟩ := by
  simp [caller, Job.start, h]

theorem caller_gone (h : r.waits = false) :
    caller begun r = gone (begun, .answered (.ok .done)) := by
  simp [caller, Job.start, gone, h]

theorem gone_alarm (e : Nat × Ending) : (gone e).alarm? = none := rfl

theorem caller_alarm (begun : Nat) (r : Request) : (caller begun r).alarm? = none := by
  by_cases hr : r.waits = true
  · rw [caller_waits hr]
    rfl
  · rw [caller_gone (by simpa using hr)]
    rfl

theorem serve_not_waits (h : r.waits = false) (c : Client) (patience : Deadline) (now : Nat) :
    c.serve patience now r = ⟨some (.ok .done), now, c⟩ :=
  Client.serve_of_command_none (by simpa [Request.waits] using h) patience now

theorem settleAll_length (c : Shared) (rs : List Request) :
    (settleAll c rs).1.length = rs.length := by
  induction rs generalizing c with
  | nil => rfl
  | cons r rs ih => simp [settleAll, ih]

/-- A caller who has just begun enters the queue if it waits. -/
theorem enqueue_caller {k : Nat} (h : s.tasks[k]? = some (caller begun r)) :
    enqueue s k = { s with queue := s.queue ++ if r.waits then [k] else [] } := by
  unfold enqueue
  rw [h]
  by_cases hr : r.waits = true
  · simp [caller_waits hr, Stage.request?, hr]
  · rw [Bool.not_eq_true] at hr
    simp [caller_gone hr, gone, Stage.request?, hr]

/-- The callers enter the queue in the order in which they began. -/
theorem enqueue_all (front : List Task) (rs : List Request)
    (htasks : s.tasks = front ++ rs.map (caller begun)) :
    (List.range' front.length rs.length).foldl enqueue s =
      { s with queue := s.queue ++ waiting front.length rs } := by
  induction rs generalizing front s with
  | nil => simp [waiting]
  | cons r rs ih =>
    have hk : s.tasks[front.length]? = some (caller begun r) := by simp [htasks]
    rw [List.length_cons, List.range'_succ, List.foldl_cons, enqueue_caller hk, waiting_cons]
    have hrest := @ih { s with queue := s.queue ++ if r.waits then [front.length] else [] }
      (front ++ [caller begun r]) (by simp [htasks])
    simpa using hrest

namespace Midway

theorem awake (h : Midway begun ends rs s) : ∀ t ∈ s.tasks, t.alarm? = none := by
  intro t ht
  rw [h.tasks_eq, List.mem_append, List.mem_map, List.mem_map] at ht
  obtain ⟨e, _, rfl⟩ | ⟨r, _, rfl⟩ := ht
  · exact gone_alarm e
  · exact caller_alarm begun r

/-- A caller whose request has no command went on when it began. -/
theorem skip (h : Midway begun ends (r :: rs) s) (hr : r.waits = false) :
    Midway begun (ends ++ [(begun, .answered (.ok .done))]) rs s where
  tasks_eq := by rw [h.tasks_eq, List.map_cons, caller_gone hr]; simp
  queue_eq := by rw [h.queue_eq, waiting_cons]; simp [hr]
  reached := by
    rw [lastGone_concat, Nat.max_eq_left (le_lastGone begun ends)]
    exact h.reached

/-- **A step serves the caller that waits longest**, from the moment at which the step begins. -/
theorem step (h : Midway begun ends (r :: rs) s) (hr : r.waits = true) :
    let call := s.client.serve none s.now r
    ∃ s', s.step = some s' ∧ s'.now = call.now ∧ s'.client = call.client ∧
      Midway begun (ends ++ [(call.now, endingOf call.result)]) rs s' := by
  intro call
  have htask : s.tasks[ends.length]? = some ⟨.asking r, none⟩ := by
    rw [h.tasks_eq, List.map_cons, caller_waits hr]
    simp
  have hqueue : s.queue = ends.length :: waiting (ends.length + 1) rs := by
    rw [h.queue_eq, waiting_cons, hr]
    rfl
  have hstage : (⟨.asking r, none⟩ : Task).after call.now call.result =
      .ended call.now (endingOf call.result) := by
    cases call.result <;> rfl
  have htasks : setStage s.tasks ends.length (.ended call.now (endingOf call.result)) =
      (ends ++ [(call.now, endingOf call.result)]).map gone ++ rs.map (caller begun) := by
    have happend := setStage_append (ends.map gone) (rs.map (caller begun)) ⟨.asking r, none⟩
      (.ended call.now (endingOf call.result))
    rw [List.length_map] at happend
    rw [h.tasks_eq, List.map_cons, caller_waits hr, happend]
    simp [gone]
  have hserved : s.served ends.length (waiting (ends.length + 1) rs) ⟨.asking r, none⟩ r =
      ⟨call.now, call.client, (ends ++ [(call.now, endingOf call.result)]).map gone ++
        rs.map (caller begun), waiting (ends.length + 1) rs⟩ := by
    unfold served
    simp only [Task.waiting, Stage.detached, Bool.false_eq_true, if_false]
    rw [wakeUntil_of_awake h.awake, show s.client.serve none s.now r = call from rfl, hstage,
      htasks]
    simp [enqueue, gone, Stage.request?]
  refine ⟨_, step_served hqueue htask rfl rfl, ?_⟩
  rw [hserved]
  refine ⟨rfl, rfl, rfl, by simp, ?_⟩
  rw [lastGone_concat]
  have hlater : s.now ≤ call.now := (s.client.serve_later r rfl).le
  exact Nat.max_le.2 ⟨Nat.le_trans h.reached hlater, Nat.le_refl _⟩

end Midway

/-- **A run serves everybody who waits**, one after the other. -/
theorem run_midway (h : Midway begun ends rs s) {fuel : Nat} (hfuel : rs.length ≤ fuel) :
    ∃ ends', Midway begun (ends ++ ends') [] (run fuel s) ∧
      ends'.map Prod.snd = (settleAll ⟨lastGone begun ends, s.now, s.client⟩ rs).1 ∧
      (⟨lastGone begun (ends ++ ends'), (run fuel s).now, (run fuel s).client⟩ : Shared) =
        (settleAll ⟨lastGone begun ends, s.now, s.client⟩ rs).2 := by
  -- The induction is on the callers that have not gone on; one without a command takes no step.
  induction rs generalizing ends s fuel with
  | nil =>
    have hdone : run fuel s = s := by
      cases fuel with
      | zero => rfl
      | succ n =>
        unfold run
        rw [step_none h.queue_eq (firstAlarm_none h.awake)]
    rw [hdone]
    exact ⟨[], by simpa using h, rfl, by simp [settleAll]⟩
  | cons r rs ih =>
    have hnow : max (lastGone begun ends) s.now = s.now := Nat.max_eq_right h.reached
    by_cases hr : r.waits = true
    · obtain ⟨s', hs, hnow', hclient, hmid⟩ := h.step hr
      generalize hcall : s.client.serve none s.now r = call at *
      have hreached : lastGone begun ends ≤ call.now := by
        have := hmid.reached
        rw [lastGone_concat, hnow'] at this
        exact Nat.le_trans (Nat.le_max_left ..) this
      have hsettle : settle ⟨lastGone begun ends, s.now, s.client⟩ r =
          (endingOf call.result, ⟨call.now, call.now, call.client⟩) := by
        simp only [settle, hnow, hcall, hr, if_true]
      cases fuel with
      | zero => simp at hfuel
      | succ n =>
        obtain ⟨ends', hmid', hends, hshared⟩ := ih hmid (Nat.le_of_succ_le_succ hfuel)
        rw [lastGone_concat, Nat.max_eq_right hreached, hnow', hclient] at hends hshared
        have hrun : run (n + 1) s = run n s' := by
          rw [run, hs]
        refine ⟨(call.now, endingOf call.result) :: ends', ?_, ?_, ?_⟩
        · rw [hrun]
          simpa using hmid'
        · simp only [settleAll, hsettle, List.map_cons, hends]
        · rw [hrun]
          simpa [settleAll, hsettle] using hshared
    · rw [Bool.not_eq_true] at hr
      have hsettle : settle ⟨lastGone begun ends, s.now, s.client⟩ r =
          (.answered (.ok .done), ⟨lastGone begun ends, s.now, s.client⟩) := by
        simp only [settle, hnow, serve_not_waits hr, hr]
        rfl
      obtain ⟨ends', hmid', hends, hshared⟩ :=
        ih (h.skip hr) (Nat.le_of_succ_le (by simpa using hfuel))
      rw [lastGone_concat, Nat.max_eq_left (le_lastGone begun ends)] at hends hshared
      refine ⟨(begun, .answered (.ok .done)) :: ends', ?_, ?_, ?_⟩
      · simpa using hmid'
      · simp only [settleAll, hsettle, List.map_cons, hends]
      · simpa [settleAll, hsettle] using hshared

end Callers

section Together

/-- A schedule whose callers have all gone on. -/
theorem endings_gone {s : Schedule} {ends : List (Nat × Ending)} (h : s.tasks = ends.map gone) :
    s.endings = ends.map Prod.snd := by
  simp [endings, h, gone, Function.comp_def]

theorem lastEnd_gone {s : Schedule} {ends : List (Nat × Ending)} (h : s.tasks = ends.map gone)
    (begun : Nat) : s.lastEnd begun = lastGone begun ends := by
  simp [lastEnd, lastGone, h, gone, List.foldl_map]

/-- Callers that begin together, before any of them was served. -/
theorem midway_ofJobs (c : Shared) (rs : List Request) :
    Midway c.now [] rs (ofJobs c (rs.map asking)) ∧
      (ofJobs c (rs.map asking)).now = max c.now c.free ∧
      (ofJobs c (rs.map asking)).client = c.client := by
  have hall : (List.range' 0 rs.length).foldl enqueue ⟨c.now, c.client, rs.map (caller c.now), []⟩ =
      ⟨c.now, c.client, rs.map (caller c.now), waiting 0 rs⟩ := enqueue_all [] rs rfl
  have hawake : ∀ t ∈ rs.map (caller c.now), t.alarm? = none := by
    intro t ht
    obtain ⟨r, _, rfl⟩ := List.mem_map.1 ht
    exact caller_alarm c.now r
  have hbegin : ofJobs c (rs.map asking) = wakeUntil c.free rs.length
      { (List.range' 0 rs.length).foldl enqueue ⟨c.now, c.client, rs.map (caller c.now), []⟩ with
        now := max c.now c.free } := by
    unfold ofJobs
    simp only [List.map_map, List.length_map, List.range_eq_range']
    rfl
  have hjobs : ofJobs c (rs.map asking) =
      ⟨max c.now c.free, c.client, rs.map (caller c.now), waiting 0 rs⟩ := by
    rw [hbegin, hall]
    exact wakeUntil_of_awake hawake ..
  rw [hjobs]
  exact ⟨⟨rfl, rfl, Nat.le_max_left ..⟩, rfl, rfl⟩

/-- Callers that begin together come to what one after the other comes to, the first being served
when the connection is free. -/
theorem together_eq (c : Shared) (rs : List Request) :
    together c (rs.map asking) =
      settleAll ⟨c.now, max c.now c.free, c.client⟩ rs := by
  have hfuel : rs.length ≤
      (rs.map asking).foldl (fun n job => n + job.1.turns) (rs.map asking).length := by
    -- Every job counts once by the length of the list alone.
    have hle : ∀ (rs : List Request) (n : Nat),
        n ≤ (rs.map asking).foldl (fun n job => n + job.1.turns) n := by
      intro rs
      induction rs with
      | nil => exact fun n => Nat.le_refl n
      | cons r rs ih => exact fun n => Nat.le_trans (Nat.le_add_right ..) (ih _)
    simpa using hle rs (rs.map asking).length
  obtain ⟨hmid, hnow, hclient⟩ := midway_ofJobs c rs
  obtain ⟨ends, hend, hends, hshared⟩ := run_midway hmid hfuel
  unfold together
  simp only
  generalize run _ (ofJobs c (rs.map asking)) = s at *
  have htasks : s.tasks = ends.map gone := by simpa using hend.tasks_eq
  rw [hnow, hclient] at hends hshared
  rw [endings_gone htasks, lastEnd_gone htasks]
  exact Prod.ext hends hshared

/-- One caller alone comes to what its request comes to. -/
theorem together_asking (c : Shared) (r : Request) :
    together c [asking r] = ([(settle c r).1], (settle c r).2) := by
  have hone := together_eq c [r]
  have hmax : max c.now (max c.now c.free) = max c.now c.free :=
    Nat.max_eq_right (Nat.le_max_left ..)
  simpa [settleAll, settle, hmax] using hone

theorem inTurn_eq (c : Shared) (rs : List Request) : inTurn c rs = settleAll c rs := by
  induction rs generalizing c with
  | nil => rfl
  | cons r rs ih =>
    rw [inTurn, together_asking]
    simp only [ih]
    rfl

/-- **Callers that begin together come to what they come to in turn.** The connection is handed on in
the order in which the callers began. Whatever state the client is in and whatever its streams do, each
of them then gets what it gets if it begins when the one before it has ended: the same results, the
same attempts to open a stream, the same octets on every session, and the same client afterwards. A
caller that nothing ever answers has given up, in both orders. -/
theorem together_linearises (c : Shared) (rs : List Request) :
    let all := together c (rs.map asking)
    let each := inTurn c rs
    all.1 = each.1 ∧
      all.2.client.dialled = each.2.client.dialled ∧
      all.2.client.links.map Link.sentOctets = each.2.client.links.map Link.sentOctets ∧
      all.2.client = each.2.client ∧ all.2.now = each.2.now := by
  have hfirst : ∀ rs, (settleAll ⟨c.now, max c.now c.free, c.client⟩ rs).1 = (settleAll c rs).1 ∧
      (settleAll ⟨c.now, max c.now c.free, c.client⟩ rs).2.client = (settleAll c rs).2.client ∧
      (settleAll ⟨c.now, max c.now c.free, c.client⟩ rs).2.now = (settleAll c rs).2.now := by
    intro rs
    cases rs with
    | nil => exact ⟨rfl, rfl, rfl⟩
    | cons r rs =>
      have hmax : max c.now (max c.now c.free) = max c.now c.free :=
        Nat.max_eq_right (Nat.le_max_left ..)
      simp only [settleAll, settle, hmax, and_self]
  intro all each
  obtain ⟨hends, hclient, hnow⟩ := hfirst rs
  have hall : all = settleAll ⟨c.now, max c.now c.free, c.client⟩ rs := together_eq c rs
  have heach : each = settleAll c rs := inTurn_eq c rs
  rw [hall, heach]
  exact ⟨hends, by rw [hclient], by rw [hclient], hclient, hnow⟩

end Together

end Schedule
end VoiceRelay
