import VoiceRelay.Proofs.Callers
import VoiceRelay.Proofs.ChatLines
import VoiceRelay.Proofs.Serving

/-!
# A chat message is sent at most once

In a run of callers every stream that is opened and every chat line that is written belongs to one
request that was served. A caller with one request is served at most once, whatever fails and however
often the connection is set up again, so its message cannot be sent twice.

**Design.** `services` lists the requests that a run serves, each with the client at that moment.
`Stands` relates what a caller set out to do, the requests served for it, and the stage it is in;
`Books` says so of all callers.

**Results.**

- `services_spend`: what a run opens and writes is what its services open and write.
- `Stands.awake`, `Stands.lost`, `Stands.served`: what happens to a caller keeps the relation.
- `books_move`, `books_moves`: so does every move and every run.
- `chat_at_most_once`: at most one chat line for every call, and exactly one for a call that returns.
-/

namespace VoiceRelay

/-- Whether a caller set out to say something. -/
def Job.speaks : Job → Bool
  | .request (.say _) => true
  | _ => false

namespace Schedule

section Defs

/-- A request that was served: for which caller, until when that caller would wait, and the time and
the client when it had the connection. -/
structure Service where
  caller : Nat
  request : Request
  patience : Deadline
  now : Nat
  client : Client

namespace Service

/-- What came of it. -/
def call (v : Service) : Call Answer := v.client.serve v.patience v.now v.request

/-- How many streams were tried to open for it. -/
def dials (v : Service) : Nat := v.call.client.dialled - v.client.dialled

/-- How many chat lines were written for it, on all sessions. -/
def chats (v : Service) : Nat := v.call.client.chats - v.client.chats

end Service

/-- The request that the next step serves. -/
def service? (s : Schedule) : Option Service :=
  match s.queue with
  | [] => none
  | i :: _ =>
    match s.tasks[i]? with
    | none => none
    | some t =>
      match t.stage.request? with
      | none => none
      | some r => if t.waiting.before s.now then none else some ⟨i, r, t.waiting, s.now, s.client⟩

/-- The request that a move serves. -/
def servicesOf (s : Schedule) : Move → List Service
  | .step => s.service?.toList
  | _ => []

/-- The requests that a run serves, in order. -/
def services (s : Schedule) : List Move → List Service
  | [] => []
  | m :: moves => servicesOf s m ++ services (s.move m) moves

/-- The services for one caller. -/
def servicesFor (i : Nat) (log : List Service) : List Service := log.filter (·.caller == i)

/-- What some services add up to. -/
def total (f : Service → Nat) : List Service → Nat
  | [] => 0
  | v :: log => f v + total f log

/-- What the caller that begins in a move sets out to do. -/
def Move.job? : Move → Option Job
  | .join job _ => some job
  | _ => none

/-- What the callers of a run set out to do, in the order in which they begin. -/
def jobs (moves : List Move) : List Job := moves.filterMap Move.job?

/-- The schedule when the first connection was tried. -/
def opening (k : Credentials) (dials : List Dial) (exhausted : Fault) (patience : Deadline) :
    Schedule :=
  let call := (Client.fresh k dials exhausted).connect patience 0
  ⟨call.now, call.client, [], []⟩

/-- What a caller set out to do, the services for it, and its stage. A caller with one request is
served at most once, and what that service came to is what the caller comes to. No other caller says
anything. -/
inductive Stands : Job → List Service → Stage → Prop
  | asks {r : Request} : r.waits = true → Stands (.request r) [] (.asking r)
  | skips {r : Request} {time : Nat} : r.waits = false →
      Stands (.request r) [] (.ended time (.answered (.ok .done)))
  | leaves {r : Request} {time : Nat} : r.waits = true →
      Stands (.request r) [] (.ended time .gaveUp)
  | answered {r : Request} {v : Service} {time : Nat} : r.waits = true → v.request = r →
      Stands (.request r) [v] (.ended time (endingOf v.call.result))
  | other {job : Job} {mine : List Service} {stage : Stage} : (∀ r, job ≠ .request r) →
      (∀ v ∈ mine, ∀ text, v.request ≠ .say text) → (∀ r, stage ≠ .asking r) →
      Stands job mine stage

/-- Every caller stands where its services have led it. -/
structure Books (begun : List Job) (log : List Service) (s : Schedule) : Prop where
  length_eq : s.tasks.length = begun.length
  known : ∀ v ∈ log, v.caller < begun.length
  stands : ∀ i t, s.tasks[i]? = some t →
    ∃ job, begun[i]? = some job ∧ Stands job (servicesFor i log) t.stage

end Defs

section Spending

theorem service_dials (v : Service) : v.dials ≤ 1 ∧
    v.call.client.dialled = v.client.dialled + v.dials := by
  obtain ⟨n, _, hspends, _⟩ := v.client.serve_spends v.patience v.now v.request
  have hle : v.client.dialled ≤ v.call.client.dialled := hspends.dialled_le
  have honce : v.call.client.dialled ≤ v.client.dialled + 1 := hspends.dialled_once
  unfold Service.dials
  omega

theorem service_chats (v : Service) : v.chats ≤ v.request.chats ∧
    v.call.client.chats = v.client.chats + v.chats ∧
      ∀ answer, v.call.result = some (.ok answer) → v.chats = v.request.chats := by
  obtain ⟨n, hn, hspends, hok⟩ := v.client.serve_spends v.patience v.now v.request
  have hchats : v.call.client.chats = v.client.chats + n := hspends.chats_eq
  have heq : v.chats = n := by
    unfold Service.chats
    omega
  rw [heq]
  exact ⟨hn, hchats, hok⟩

theorem service_dropped {s : Schedule} {i : Nat} {queue : List Nat} (hqueue : s.queue = i :: queue)
    (hnone : ∀ t, s.tasks[i]? = some t → t.stage.request? = none) : s.service? = none := by
  unfold service?
  rcases ht : s.tasks[i]? with _ | t
  · simp [hqueue, ht]
  · simp [hqueue, ht, hnone t ht]

theorem service_served {s : Schedule} {i : Nat} {queue : List Nat} {t : Task} {r : Request}
    (hqueue : s.queue = i :: queue) (ht : s.tasks[i]? = some t) (hr : t.stage.request? = some r)
    (hb : t.waiting.before s.now = false) :
    s.service? = some ⟨i, r, t.waiting, s.now, s.client⟩ := by
  simp [service?, hqueue, ht, hr, hb]

/-- A step serves the request at hand, or leaves the client alone. -/
theorem step_serves {s s' : Schedule} (h : Steps s s') :
    (s.service? = none ∧ s'.client = s.client) ∨
      ∃ v, s.service? = some v ∧ v.client = s.client ∧ s'.client = v.call.client := by
  cases h with
  | dropped hqueue hnone => exact Or.inl ⟨service_dropped hqueue hnone, rfl⟩
  | lost hqueue ht hr hb => exact Or.inl ⟨by simp [service?, hqueue, ht, hr, hb], rfl⟩
  | served hqueue ht hr hb =>
    exact Or.inr ⟨_, service_served hqueue ht hr hb, rfl, by simp [Schedule.served, Service.call]⟩
  | woken hqueue _ => exact Or.inl ⟨by simp [service?, hqueue], by simp⟩

theorem service_none {s : Schedule} (h : s.step = none) : s.service? = none := by
  rcases hqueue : s.queue with _ | ⟨i, queue⟩
  · simp [service?, hqueue]
  · unfold step at h
    rw [hqueue] at h
    simp only at h
    split at h
    · cases h
    · split at h
      · cases h
      · split at h <;> cases h

/-- A move serves one request, or leaves the client alone. -/
theorem move_serves (s : Schedule) (m : Move) :
    (servicesOf s m = [] ∧ (s.move m).client = s.client) ∨
      ∃ v, servicesOf s m = [v] ∧ v.client = s.client ∧ (s.move m).client = v.call.client := by
  cases m with
  | join job patience => exact Or.inl ⟨rfl, by simp [move]⟩
  | pass length => exact Or.inl ⟨rfl, by simp [move]⟩
  | step =>
    unfold servicesOf move
    rcases hs : s.step with _ | s'
    · exact Or.inl ⟨by simp [service_none hs], rfl⟩
    · rcases step_serves (step_cases hs) with ⟨hnone, hc⟩ | ⟨v, hv, hbefore, hafter⟩
      · exact Or.inl ⟨by simp [hnone], hc⟩
      · exact Or.inr ⟨v, by simp [hv], hbefore, hafter⟩

theorem total_append (f : Service → Nat) (log more : List Service) :
    total f (log ++ more) = total f log + total f more := by
  induction log with
  | nil => simp [total]
  | cons v log ih => simp only [List.cons_append, total, ih, Nat.add_assoc]

theorem total_le {f g : Service → Nat} (log : List Service) (h : ∀ v ∈ log, f v ≤ g v) :
    total f log ≤ total g log := by
  induction log with
  | nil => exact Nat.le_refl 0
  | cons v log ih =>
    exact Nat.add_le_add (h v List.mem_cons_self) (ih fun u hu => h u (List.mem_cons_of_mem v hu))

theorem total_eq_zero {f : Service → Nat} (log : List Service) (h : ∀ v ∈ log, f v = 0) :
    total f log = 0 := by
  induction log with
  | nil => rfl
  | cons v log ih =>
    rw [total, h v List.mem_cons_self, ih fun u hu => h u (List.mem_cons_of_mem v hu)]

theorem total_filter (f : Service → Nat) (p q : Service → Bool) (log : List Service)
    (h : ∀ v ∈ log, ¬ (p v = true ∧ q v = true)) :
    total f (log.filter fun v => p v || q v) =
      total f (log.filter p) + total f (log.filter q) := by
  induction log with
  | nil => rfl
  | cons v log ih =>
    have hrest := ih fun u hu => h u (List.mem_cons_of_mem v hu)
    have hv := h v List.mem_cons_self
    by_cases hp : p v = true
    · have hq : q v = false := by simpa [hp] using hv
      simp only [List.filter_cons, hp, hq, Bool.true_or, if_true, Bool.false_eq_true, if_false,
        total, hrest, Nat.add_assoc]
    · rw [Bool.not_eq_true] at hp
      by_cases hq : q v = true
      · simp only [List.filter_cons, hp, hq, Bool.or_true, if_true, Bool.false_eq_true, if_false,
          total, hrest]
        omega
      · rw [Bool.not_eq_true] at hq
        simp only [List.filter_cons, hp, hq, Bool.or_false, Bool.false_eq_true, if_false, hrest]

/-- **What a run opens and writes** is what its services open and write. -/
theorem services_spend (s : Schedule) (moves : List Move) :
    (moves.foldl move s).client.dialled =
        s.client.dialled + total Service.dials (services s moves) ∧
      (moves.foldl move s).client.chats =
        s.client.chats + total Service.chats (services s moves) := by
  induction moves generalizing s with
  | nil => exact ⟨rfl, rfl⟩
  | cons m moves ih =>
    obtain ⟨hdialled, hchats⟩ := ih (s.move m)
    rw [List.foldl_cons, hdialled, hchats, services]
    rcases move_serves s m with ⟨hnone, hc⟩ | ⟨v, hv, hbefore, hafter⟩
    · rw [hnone, hc]
      exact ⟨rfl, rfl⟩
    · rw [hv, hafter, (service_dials v).2, (service_chats v).2.1, hbefore]
      simp only [total_append, total]
      omega

/-- Every service finds the client as it is between two calls. -/
theorem services_sound {k : Credentials} {dials : List Dial} {s : Schedule}
    (h : s.client.Sound k dials) (moves : List Move) :
    ∀ v ∈ services s moves, v.client.Sound k dials := by
  induction moves generalizing s with
  | nil => simp [services]
  | cons m moves ih =>
    intro v hv
    rcases List.mem_append.1 hv with hv | hv
    · rcases move_serves s m with ⟨hnone, _⟩ | ⟨u, hu, hbefore, _⟩
      · rw [hnone] at hv
        cases hv
      · rw [hu, List.mem_singleton] at hv
        rw [hv, hbefore]
        exact h
    · exact ih (move_sound h m) v hv

end Spending

section Standing

variable {job : Job} {mine : List Service} {t : Task} {now : Nat}

/-- A caller that wakes up asks for nothing new. -/
theorem Stands.awake (h : Stands job mine t.stage) : Stands job mine t.awake := by
  obtain ⟨stage, patience⟩ := t
  unfold Task.awake
  cases h with
  | asks hwaits => exact .asks hwaits
  | skips hwaits => exact .skips hwaits
  | leaves hwaits => exact .leaves hwaits
  | answered hwaits hr => exact .answered hwaits hr
  | other hjob hmine hstage =>
    refine .other hjob hmine fun r => ?_
    split
    · split
      · simp [Task.lost]
      · unfold Stage.awake
        split
        · split <;> simp
        · exact hstage r
    · exact hstage r

/-- A caller that gives up while it waits was not served. -/
theorem Stands.lost (h : Stands job mine t.stage) {r : Request} (hr : t.stage.request? = some r) :
    Stands job mine (t.lost now) := by
  obtain ⟨stage, patience⟩ := t
  cases h with
  | asks hwaits => exact .leaves hwaits
  | other hjob hmine _ => exact .other hjob hmine fun r => by simp [Task.lost]
  | skips | leaves | answered => cases hr

/-- Only a caller with a single request says something. -/
theorem request_ne_say {stage : Stage} (h : ∀ r, stage ≠ .asking r) {r : Request}
    (hr : stage.request? = some r) (text : String) : r ≠ .say text := by
  cases stage with
  | asking r => exact absurd rfl (h r)
  | askingOccupants | askingChannels | beating => cases hr; simp
  | asleep | ended => cases hr

theorem after_ne_asking {stage : Stage} (h : ∀ r, stage ≠ .asking r) (now : Nat)
    (result : Except Fault Answer) (r : Request) : stage.after now result ≠ .asking r := by
  cases stage with
  | asking r => exact absurd rfl (h r)
  | askingOccupants | askingChannels =>
    rcases result with f | list | list | _ <;> simp [Stage.after]
  | beating =>
    simp only [Stage.after]
    split <;> simp
  | asleep | ended => simp [Stage.after]

/-- **A caller that is served** with its one request was not served before, and ends. -/
theorem Stands.serve (h : Stands job mine t.stage) {v : Service}
    (hr : t.stage.request? = some v.request) :
    Stands job (mine ++ [v]) (t.after v.call.now v.call.result) := by
  obtain ⟨stage, patience⟩ := t
  cases h with
  | @asks r hwaits =>
    have hv : v.request = r := by simpa [Stage.request?] using hr.symm
    have hafter : ∃ time, (⟨.asking r, patience⟩ : Task).after v.call.now v.call.result =
        .ended time (endingOf v.call.result) := by
      rcases v.call.result with _ | result
      · exact ⟨_, rfl⟩
      · exact ⟨v.call.now, by simp [Task.after, Stage.detached, Stage.after, endingOf]⟩
    obtain ⟨time, hafter⟩ := hafter
    rw [hafter]
    exact .answered hwaits hv
  | other hjob hmine hstage =>
    -- A look-up or a heartbeat may ask again, but not to say something.
    refine .other hjob ?_ fun r => ?_
    · intro u hu text
      rcases List.mem_append.1 hu with hu | hu
      · exact hmine u hu text
      · rw [List.mem_singleton.1 hu]
        exact request_ne_say hstage hr text
    · unfold Task.after
      split
      · simp [Task.lost]
      · split
        · simp [Task.lost]
        · exact after_ne_asking hstage _ _ r
  | skips | leaves | answered => cases hr

theorem stands_start (job : Job) (now : Nat) : Stands job [] (job.start now) := by
  cases job with
  | request r =>
    simp only [Job.start]
    by_cases hr : r.waits = true
    · rw [if_pos hr]
      exact .asks hr
    · rw [if_neg hr]
      exact .skips (by simpa using hr)
  | roster hidden => exact .other (by simp) (by simp) (by simp [Job.start])
  | heartbeat interval length => exact .other (by simp) (by simp) (by simp [Job.start])

end Standing

section Keeping

variable {begun : List Job} {log : List Service} {s : Schedule}

theorem servicesFor_append (i : Nat) (log more : List Service) :
    servicesFor i (log ++ more) = servicesFor i log ++ servicesFor i more :=
  List.filter_append ..

theorem Books.fresh (h : Books begun log s) {i : Nat} (hi : begun.length ≤ i) :
    servicesFor i log = [] := by
  unfold servicesFor
  rw [List.filter_eq_nil_iff]
  intro v hv
  have := h.known v hv
  simp only [beq_iff_eq]
  omega

theorem Books.wake (h : Books begun log s) (time n now : Nat) (c : Client) (queue : List Nat) :
    Books begun log (wakeUntil time n ⟨now, c, s.tasks, queue⟩) where
  length_eq := by rw [wakeUntil_length]; exact h.length_eq
  known := h.known
  stands := by
    refine wakeUntil_tasks (fun i t => ?_) time n h.stands
    rintro ⟨job, hjob, hstands⟩
    exact ⟨job, hjob, hstands.awake⟩

/-- One caller moves on to another stage, possibly after one more service. -/
theorem Books.set (h : Books begun log s) {i : Nat} {t : Task} (ht : s.tasks[i]? = some t)
    {stage : Stage} {more : List Service} (hmore : ∀ v ∈ more, v.caller = i)
    (hstands : ∀ job, Stands job (servicesFor i log) t.stage →
      Stands job (servicesFor i log ++ more) stage) (now : Nat) (c : Client) (queue : List Nat) :
    Books begun (log ++ more) ⟨now, c, setStage s.tasks i stage, queue⟩ where
  length_eq := by rw [setStage_length]; exact h.length_eq
  known := by
    have hi : i < s.tasks.length := (List.getElem?_eq_some_iff.1 ht).1
    intro v hv
    rcases List.mem_append.1 hv with hv | hv
    · exact h.known v hv
    · rw [hmore v hv, ← h.length_eq]
      exact hi
  stands := by
    intro j u hu
    rw [getElem?_setStage] at hu
    rw [servicesFor_append]
    split at hu
    · next hij =>
      subst hij
      rw [ht] at hu
      cases hu
      obtain ⟨job, hjob, hstands'⟩ := h.stands i t ht
      have hall : servicesFor i more = more :=
        List.filter_eq_self.2 fun v hv => by simp [hmore v hv]
      rw [hall]
      exact ⟨job, hjob, hstands job hstands'⟩
    · next hij =>
      have hnone : servicesFor j more = [] := by
        refine List.filter_eq_nil_iff.2 fun v hv => ?_
        simp [hmore v hv, hij]
      rw [hnone, List.append_nil]
      exact h.stands j u hu

theorem Books.congr {s' : Schedule} (h : Books begun log s) (ht : s'.tasks = s.tasks) :
    Books begun log s' :=
  ⟨ht ▸ h.length_eq, h.known, ht ▸ h.stands⟩

theorem Books.enqueue (h : Books begun log s) (i : Nat) : Books begun log (s.enqueue i) :=
  h.congr (enqueue_tasks s i)

/-- **A step keeps the books**, with the request that it serves. -/
theorem books_step {s' : Schedule} (h : Books begun log s) (hs : Steps s s') :
    Books begun (log ++ s.service?.toList) s' := by
  cases hs with
  | dropped hqueue hnone =>
    rw [service_dropped hqueue hnone, Option.toList_none, List.append_nil]
    exact h.congr rfl
  | @lost i queue t r hqueue ht hr hb =>
    have hv : s.service? = none := by simp [service?, hqueue, ht, hr, hb]
    rw [hv]
    exact h.set ht (by simp) (fun job hstands => by simpa using hstands.lost hr) _ _ _
  | @served i queue t r hqueue ht hr hb =>
    have hawake : t.stage.alarm? = none := by
      cases hstage : t.stage with
      | asleep => simp [hstage, Stage.request?] at hr
      | _ => rfl
    rw [service_served hqueue ht hr hb]
    unfold Schedule.served
    -- Others may have woken up while the connection was in use; the caller itself did not sleep.
    refine Books.enqueue (Books.set (h.wake _ _ _ _ queue) (wakeUntil_waiting ht hawake ..)
      (by simp) (fun job hstands => ?_) _ _ _) i
    exact hstands.serve hr
  | @woken i a hqueue ha =>
    have hv : s.service? = none := by simp [service?, hqueue]
    rw [hv, Option.toList_none, List.append_nil]
    exact h.wake _ _ _ _ _

/-- **A move keeps the books**, with the caller that begins and the request that is served. -/
theorem books_move (h : Books begun log s) (m : Move) :
    Books (begun ++ m.job?.toList) (log ++ servicesOf s m) (s.move m) := by
  cases m with
  | join job patience =>
    simp only [Move.job?, servicesOf, Option.toList_some, List.append_nil, move]
    refine Books.enqueue ⟨by simp [h.length_eq], fun v hv => ?_, fun i t ht => ?_⟩ _
    · rw [List.length_append]
      exact Nat.lt_add_right 1 (h.known v hv)
    · rcases Nat.lt_or_ge i s.tasks.length with hi | hi
      · rw [List.getElem?_append_left hi] at ht
        obtain ⟨job', hjob, hstands⟩ := h.stands i t ht
        exact ⟨job', by rw [List.getElem?_append_left (h.length_eq ▸ hi)]; exact hjob, hstands⟩
      · have hlast : i = begun.length := by
          have := (List.getElem?_eq_some_iff.1 ht).1
          have hlength := h.length_eq
          simp only [List.length_append, List.length_singleton] at this
          omega
        rw [hlast, ← h.length_eq, List.getElem?_concat_length] at ht
        cases ht
        refine ⟨job, by rw [hlast, List.getElem?_concat_length], ?_⟩
        rw [h.fresh (Nat.le_of_eq hlast.symm)]
        exact stands_start job s.now
  | pass length =>
    simp only [Move.job?, servicesOf, Option.toList_none, List.append_nil, move]
    exact h.wake _ _ _ _ _
  | step =>
    simp only [Move.job?, servicesOf, Option.toList_none, List.append_nil, move]
    rcases hs : s.step with _ | s'
    · rw [service_none hs, Option.toList_none, List.append_nil]
      exact h
    · exact books_step h (step_cases hs)

theorem jobs_cons (m : Move) (moves : List Move) :
    jobs (m :: moves) = m.job?.toList ++ jobs moves := by
  unfold jobs
  cases h : m.job? <;> simp [h]

/-- **Every run keeps the books.** -/
theorem books_moves (h : Books begun log s) (moves : List Move) :
    Books (begun ++ jobs moves) (log ++ services s moves) (moves.foldl move s) := by
  induction moves generalizing begun log s with
  | nil => simpa [jobs, services] using h
  | cons m moves ih =>
    have hrest := ih (books_move h m)
    rw [List.foldl_cons, jobs_cons, services, ← List.append_assoc, ← List.append_assoc]
    exact hrest

end Keeping

section Totals

theorem books_opening (k : Credentials) (dials : List Dial) (exhausted : Fault)
    (patience : Deadline) : Books [] [] (opening k dials exhausted patience) where
  length_eq := rfl
  known v hv := by cases hv
  stands i t ht := by simp [opening] at ht

/-- Only a caller that set out to say something needs a chat line, and it needs one. -/
theorem Stands.chats_le {job : Job} {mine : List Service} {stage : Stage}
    (h : Stands job mine stage) :
    total (fun v => v.request.chats) mine ≤ if job.speaks then 1 else 0 := by
  cases h with
  | asks | skips | leaves => exact Nat.zero_le _
  | @answered r v time hwaits hv =>
    simp only [total, hv, Nat.add_zero]
    cases r with
    | say text => exact chats_le_one _
    | occupants | channels | ping | quit => decide
  | other hjob hmine _ =>
    rw [total_eq_zero mine fun v hv => chats_eq_zero (hmine v hv)]
    exact Nat.zero_le _

/-- The services for the first callers need no more chat lines than there are callers among them that
set out to say something. -/
theorem Books.first_chats_le {begun : List Job} {log : List Service} {s : Schedule}
    (h : Books begun log s) (n : Nat) (hn : n ≤ begun.length) :
    total (fun v => v.request.chats) (log.filter fun v => decide (v.caller < n)) ≤
      (begun.take n).countP Job.speaks := by
  induction n with
  | zero => simp [total]
  | succ n ih =>
    -- The caller at position `n` adds its own services, and those need one chat line at most.
    have hsplit : log.filter (fun v => decide (v.caller < n + 1)) =
        log.filter (fun v => decide (v.caller < n) || v.caller == n) := by
      refine List.filter_congr fun v _ => ?_
      rw [Bool.eq_iff_iff]
      simp only [decide_eq_true_eq, Bool.or_eq_true, beq_iff_eq]
      omega
    have hlt : n < s.tasks.length := h.length_eq ▸ hn
    obtain ⟨job, hjob, hstands⟩ := h.stands n _ (List.getElem?_eq_getElem hlt)
    have hone := hstands.chats_le
    have hfirst := ih (Nat.le_of_succ_le hn)
    rw [hsplit, total_filter _ _ _ _ fun v _ => by
      simp only [decide_eq_true_eq, beq_iff_eq]
      omega]
    rw [List.take_add_one, hjob, List.countP_append]
    simp only [Option.toList_some, List.countP_singleton]
    exact Nat.add_le_add hfirst hone

/-- **No more chat lines than calls** that set out to say something. -/
theorem Books.chats_le {begun : List Job} {log : List Service} {s : Schedule}
    (h : Books begun log s) : total Service.chats log ≤ begun.countP Job.speaks := by
  have hall := h.first_chats_le begun.length (Nat.le_refl _)
  rw [List.take_length, List.filter_eq_self.2 fun v hv => by simpa using h.known v hv] at hall
  exact Nat.le_trans (total_le log fun v _ => (service_chats v).1) hall

/-- What a caller stands for that set out to say something. -/
theorem Stands.say_cases {text : String} {mine : List Service} {stage : Stage}
    (h : Stands (.request (.say text)) mine stage) :
    (mine = [] ∧ ∀ time answer, stage = .ended time (.answered (.ok answer)) →
        (Request.say text).waits = false) ∨
      ∃ v time, mine = [v] ∧ v.request = .say text ∧
        stage = .ended time (endingOf v.call.result) := by
  cases h with
  | asks hwaits => exact Or.inl ⟨rfl, fun time answer h => by cases h⟩
  | skips hwaits => exact Or.inl ⟨rfl, fun _ _ _ => hwaits⟩
  | leaves hwaits => exact Or.inl ⟨rfl, fun time answer h => by cases h⟩
  | @answered r v time hwaits hv => exact Or.inr ⟨v, time, rfl, hv, rfl⟩
  | other hjob _ _ => exact absurd rfl (hjob _)

/-- A caller whose request has no command returned when it began. -/
theorem Stands.skip_cases {r : Request} {mine : List Service} {stage : Stage}
    (h : Stands (.request r) mine stage) (hr : r.waits = false) :
    mine = [] ∧ ∃ time, stage = .ended time (.answered (.ok .done)) := by
  cases h with
  | skips _ => exact ⟨rfl, _, rfl⟩
  | asks hwaits | leaves hwaits | answered hwaits _ =>
    rw [hr] at hwaits
    cases hwaits
  | other hjob _ _ => exact absurd rfl (hjob r)

end Totals

section AtMostOnce

/-- A request that has no command changes nothing, in whatever state the client is. -/
theorem join_skips (s : Schedule) {r : Request} (hr : r.waits = false) (patience : Deadline) :
    s.move (.join (.request r) patience) =
      { s with tasks := s.tasks ++ [⟨.ended s.now (.answered (.ok .done)), patience⟩] } := by
  have hstart : (Job.request r).start s.now = .ended s.now (.answered (.ok .done)) := by
    simp [Job.start, hr]
  simp [move, hstart, enqueue, Stage.request?]

/-- **A chat message is sent at most once.** Whatever the sessions do and however callers begin, wait,
give up and share the connection: all streams that a run tries to open and all chat lines that it
writes come from the requests that it serves, and there are no more chat lines than calls to say
something. Each such call tries to open at most one stream and writes at most one chat line. If it has
a word to say and returns well, it wrote exactly one, and the last line read after that on the same
session was a status line with the number 0. If it has none, it returns well at once, is never served,
and changes nothing, in whatever state the client is. -/
theorem chat_at_most_once (k : Credentials) (dials : List Dial) (exhausted : Fault)
    (patience : Deadline) (moves : List Move) :
    let start := opening k dials exhausted patience
    let s := play k dials exhausted patience moves
    let log := services start moves
    s.client.dialled = start.client.dialled + total Service.dials log ∧
    s.client.chats = total Service.chats log ∧
    s.client.chats ≤ (jobs moves).countP Job.speaks ∧
    ∀ (i : Nat) (text : String), (jobs moves)[i]? = some (.request (.say text)) →
      ∃ t, s.tasks[i]? = some t ∧
        total Service.dials (servicesFor i log) ≤ 1 ∧
        total Service.chats (servicesFor i log) ≤ 1 ∧
        ((∃ ch ∈ text.toList, Text.isBlank ch = false) →
          ∀ time answer, t.stage = .ended time (.answered (.ok answer)) →
            ∃ v w, servicesFor i log = [v] ∧ v.chats = 1 ∧ Escape.encodeWords text = some w ∧
              ∃ (l : Link) (said : List Event) (x : Exchange) (status : Status),
                v.client.Start k said ∧ v.call.client.slot = some l ∧
                l.transcript = said ++ x.events ∧ x.command = "gm msg=" ++ w ∧
                x.Closed status ∧ status.id = 0) ∧
        ((∀ ch ∈ text.toList, Text.isBlank ch = true) →
          servicesFor i log = [] ∧ (∃ time, t.stage = .ended time (.answered (.ok .done))) ∧
            ∀ (s' : Schedule) (until' : Deadline),
              s'.move (.join (.request (.say text)) until') =
                { s' with tasks := s'.tasks ++ [⟨.ended s'.now (.answered (.ok .done)), until'⟩] }) := by
  intro start s log
  have hbooks : Books (jobs moves) log s := books_moves (books_opening k dials exhausted patience) moves
  have hsound : ∀ v ∈ log, v.client.Sound k dials :=
    services_sound (Client.connect_sound (Client.fresh_sound k dials exhausted) rfl patience 0) moves
  obtain ⟨hdialled, hchats⟩ := services_spend start moves
  have hquiet : start.client.chats = 0 :=
    ((Client.fresh k dials exhausted).connect_chats rfl patience 0).2
  rw [hquiet, Nat.zero_add] at hchats
  refine ⟨hdialled, hchats, hchats ▸ hbooks.chats_le, fun i text hi => ?_⟩
  have hlt : i < s.tasks.length := by
    rw [hbooks.length_eq]
    exact (List.getElem?_eq_some_iff.1 hi).1
  obtain ⟨job, hjob, hstands⟩ := hbooks.stands i _ (List.getElem?_eq_getElem hlt)
  obtain rfl : job = .request (.say text) := Option.some.inj (hjob.symm.trans hi)
  refine ⟨s.tasks[i], List.getElem?_eq_getElem hlt, ?_, ?_, ?_, ?_⟩
  · rcases hstands.say_cases with ⟨hnone, _⟩ | ⟨v, time, hv, _⟩
    · simp [hnone, total]
    · simpa [hv, total] using (service_dials v).1
  · exact Nat.le_trans (total_le _ fun v _ => (service_chats v).1) hstands.chats_le
  · intro hword time answer hended
    obtain ⟨w, hw, hcommand⟩ := say_command hword
    rcases hstands.say_cases with ⟨_, hskips⟩ | ⟨v, time', hv, hr, hstage⟩
    · have hwaits := hskips time answer hended
      simp [Request.waits, hcommand] at hwaits
    · -- The call returned well, so it was served, and its service is one of the run.
      have hmem : v ∈ log := (List.mem_filter.1 (hv ▸ List.mem_singleton_self v)).1
      have hresult : v.call.result = some (.ok answer) := by
        rw [hstage] at hended
        rcases hres : v.call.result with _ | result
        · simp [hres, endingOf] at hended
        · simp [hres, endingOf] at hended
          rw [hended.2]
      refine ⟨v, w, hv, ?_, hw, ?_⟩
      · rw [(service_chats v).2.2 answer hresult, hr, chats_say hw]
      · unfold Service.call at hresult ⊢
        rw [hr] at hresult ⊢
        exact Client.serve_said (hsound v hmem) v.patience v.now hw hresult
  · intro hblank
    have hcommand := (command_eq_none_iff text).2 hblank
    have hwaits : (Request.say text).waits = false := by simp [Request.waits, hcommand]
    obtain ⟨hnone, hended⟩ := hstands.skip_cases hwaits
    exact ⟨hnone, hended, fun s' until' => s'.join_skips hwaits until'⟩

end AtMostOnce

end Schedule

end VoiceRelay
