import VoiceRelay.Proofs.ChatCalls
import VoiceRelay.Proofs.Clock
import VoiceRelay.Proofs.Reconnecting
import VoiceRelay.Proofs.Wakings

/-!
# A heartbeat among other callers

A heartbeat shares the connection with any other callers. Its first beat begins one interval after the
heartbeat, and each later one an interval after the beat before it has ended, whatever came of that. No beat
begins from the signal to stop on; one that has begun by then is served like any other request, also if it
still waits in the queue, and the heartbeat ends after it. The connection changes hands only when somebody
is served, so the signal does nothing to it.

**Design.** `beginnings` are the moments at which the beats of a caller begin, read off the stages before and
after each move. `Pulse` lists the three situations of a heartbeat and relates each of them to the beats that
have begun and to those that were served. What a move does to one caller is said once (`Fares`), for all
moves and all callers without patience of their own.

**Results.**

- `fares_move`: what a move does to a caller.
- `pulse_move`, `pulse_moves`: a heartbeat keeps its schedule in every move and in every run.
- `beating_served`: a beat that waits for the connection is served.
- `heartbeats_on_schedule`: all this from the start, with what each service does to the connection.
-/

namespace VoiceRelay

namespace Schedule

section Defs

/-- When a beat of the caller at position `i` begins in a move, if one does: the caller slept before, and
waits for the connection after. -/
def begins? (i : Nat) (s : Schedule) (m : Move) : Option Nat :=
  match s.tasks[i]?.map Task.stage, (s.move m).tasks[i]?.map Task.stage with
  | some (.asleep wake _ _), some (.beating _ _) => some wake
  | _, _ => none

/-- When the beats of a caller begin in a run. -/
def beginnings (i : Nat) (s : Schedule) : List Move → List Nat
  | [] => []
  | m :: moves => (begins? i s m).toList ++ beginnings i (s.move m) moves

/-- When the beats of a heartbeat are due: one interval after its start and one after the end of each beat. -/
def due (start interval : Nat) (beats : List Service) : List Nat :=
  (start :: beats.map (·.call.now)).map (· + interval)

/-- Since when a heartbeat has rested: since the end of its last beat, or since its start. -/
def restedSince (start : Nat) (beats : List Service) : Nat :=
  (beats.getLast?.map (·.call.now)).getD start

/-- The beats that have begun by now did so before the signal, and those that were served, in the same order,
each after it had begun. Nobody gives up on them. -/
structure Regular (stop now : Nat) (begun : List Nat) (beats : List Service) : Prop where
  early : ∀ a ∈ begun, a < stop
  past : ∀ a ∈ begun, a ≤ now
  served : ∀ (j : Nat) (v : Service), beats[j]? = some v →
    v.request = .ping ∧ v.patience = none ∧ ∃ a, begun[j]? = some a ∧ a ≤ v.now

/-- The situations of a heartbeat. All beats that were due have begun but the next one, while it sleeps and
for good once it has stopped; while one beat waits for the connection, all that were due have begun. -/
inductive Pulse (i start interval stop : Nat) (begun : List Nat) (beats : List Service)
    (s : Schedule) : Prop
  | asleep {wake : Nat} : s.tasks[i]? = some ⟨.asleep wake interval stop, none⟩ →
      begun ++ [wake] = due start interval beats → s.now ≤ min wake stop →
      restedSince start beats ≤ stop → Pulse i start interval stop begun beats s
  | beating : s.tasks[i]? = some ⟨.beating interval stop, none⟩ → i ∈ s.queue →
      begun = due start interval beats → Pulse i start interval stop begun beats s
  | stopped {wake : Nat} :
      s.tasks[i]? = some ⟨.ended (max stop (restedSince start beats)) .stopped, none⟩ →
      begun ++ [wake] = due start interval beats → stop ≤ wake →
      Pulse i start interval stop begun beats s

/-- What a move does to a caller without patience, and the services for it. -/
inductive Fares (i : Nat) (t : Task) (s s' : Schedule) : List Service → Prop
  | still : s'.tasks[i]? = some t → s'.now = s.now →
      (t.stage.request?.isSome = true → i ∈ s.queue → i ∈ s'.queue) → Fares i t s s' []
  | passes {time : Nat} : s'.tasks[i]? = some (t.at time) → s'.now = max s.now time →
      (t.stage.request?.isSome = true → i ∈ s.queue → i ∈ s'.queue) →
      (t.wakesBy time = true → t.awake.request?.isSome = true → i ∈ s'.queue) → Fares i t s s' []
  | served {v : Service} : t.stage.request? = some v.request → v.caller = i → v.patience = none →
      v.now = s.now → s'.tasks[i]? = some { t with stage := t.after v.call.now v.call.result } →
      s'.now = v.call.now → Fares i t s s' [v]

/-- Each service finds the client as the one before it has left it. -/
def Chained (c : Client) : List Service → Client → Prop
  | [], c' => c' = c
  | v :: log, c' => v.client = c ∧ Chained v.call.client log c'

/-- What a service for a command comes to: on the connection in the slot, or on a new one if the slot was
empty. -/
structure Service.Lawful (k : Credentials) (v : Service) (text : String)
    (learnt : Option (Except Fault (List Record))) : Prop where
  result_eq : v.call.result = learnt.map (·.bind v.request.answer)
  uses : ∀ l, v.client.slot = some l → v.dials = 0 ∧ Client.Uses l v.client v.call.client learnt
  opens : v.client.slot = none → v.dials = 1 ∧ v.client.Opens k text v.call.client learnt

end Defs

section Moves

variable {s s' : Schedule} {i : Nat} {t : Task}

@[simp] theorem enqueue_now (s : Schedule) (i : Nat) : (s.enqueue i).now = s.now := by
  unfold enqueue
  split
  · rfl
  · split <;> rfl

@[simp] theorem wakeUntil_now (time n : Nat) (s : Schedule) : (wakeUntil time n s).now = s.now := by
  induction n generalizing s with
  | zero => rfl
  | succ n ih =>
    unfold wakeUntil
    split
    · rfl
    · split
      · rfl
      · split
        · rfl
        · rw [ih, enqueue_now]

theorem waiting_none (h : t.patience = none) : t.waiting = none := by
  unfold Task.waiting
  rw [h, ite_self]

theorem servicesFor_singleton (i : Nat) (v : Service) :
    servicesFor i [v] = if v.caller = i then [v] else [] := by
  by_cases h : v.caller = i <;> simp [servicesFor, h]

/-- What serving one caller does to the clock, to the queue, and to another caller. -/
theorem served_others (j : Nat) (queue : List Nat) (u : Task) (r : Request)
    (ht : s.tasks[i]? = some t) :
    let s' := s.served j queue u r
    s'.now = (s.client.serve u.waiting s.now r).now ∧ queue <+: s'.queue ∧
      (j ≠ i → s'.tasks[i]? = some (t.at s'.now) ∧
        (t.wakesBy s'.now = true → t.awake.request?.isSome = true → i ∈ s'.queue)) := by
  have hnow : (s.served j queue u r).now = (s.client.serve u.waiting s.now r).now := by
    simp [Schedule.served]
  simp only [hnow, true_and]
  unfold Schedule.served
  generalize s.client.serve u.waiting s.now r = call
  have hwoken := wakeUntil_woken (s := ⟨call.now, call.client, s.tasks, queue⟩) call.now
    s.tasks.length ht (sleepers_le s.tasks)
  simp only
  generalize wakeUntil call.now s.tasks.length ⟨call.now, call.client, s.tasks, queue⟩ = woken at *
  have hkeeps := (enqueue_queue
    { woken with tasks := setStage woken.tasks j (u.after call.now call.result) } j).1
  refine ⟨hwoken.queue.trans hkeeps, fun hne => ⟨?_, fun hw hr => hkeeps.subset (hwoken.waits hw hr)⟩⟩
  rw [enqueue_tasks, getElem?_setStage, if_neg hne]
  exact hwoken.task

/-- What serving a caller does to that caller. -/
theorem served_self {queue : List Nat} {r : Request} (ht : s.tasks[i]? = some t)
    (hr : t.stage.request? = some r) :
    let call := s.client.serve t.waiting s.now r
    (s.served i queue t r).tasks[i]? = some { t with stage := t.after call.now call.result } := by
  -- It did not sleep, so it did not wake up with the others.
  have hasleep : t.stage.alarm? = none := by
    cases hstage : t.stage with
    | asleep => simp [hstage, Stage.request?] at hr
    | _ => rfl
  simp only [Schedule.served, enqueue_tasks]
  rw [getElem?_setStage, if_pos rfl, wakeUntil_waiting ht hasleep]
  rfl

/-- What a step does to a caller. -/
theorem fares_step (ht : s.tasks[i]? = some t) (hpatience : t.patience = none) (hs : Steps s s') :
    Fares i t s s' (servicesFor i s.service?.toList) := by
  cases hs with
  | @dropped j queue hqueue hnone =>
    rw [service_dropped hqueue hnone]
    refine .still ht rfl fun hr hi => ?_
    rw [hqueue] at hi
    rcases List.mem_cons.1 hi with rfl | hi
    · rw [hnone t ht] at hr
      cases hr
    · exact hi
  | @lost j queue u r hqueue hu hr hb =>
    have hv : s.service? = none := by simp [service?, hqueue, hu, hr, hb]
    have hne : j ≠ i := by
      rintro rfl
      rw [ht] at hu
      cases hu
      rw [waiting_none hpatience] at hb
      cases hb
    rw [hv]
    refine .still (by rw [getElem?_setStage, if_neg hne]; exact ht) rfl fun _ hi => ?_
    rw [hqueue] at hi
    exact (List.mem_cons.1 hi).resolve_left (Ne.symm hne)
  | @served j queue u r hqueue hu hr hb =>
    obtain ⟨hnow, hgrows, hother⟩ := served_others j queue u r ht
    rw [service_served hqueue hu hr hb, Option.toList_some, servicesFor_singleton]
    by_cases hji : j = i
    · subst hji
      rw [ht] at hu
      cases hu
      rw [if_pos rfl]
      exact .served hr rfl (waiting_none hpatience) rfl (served_self ht hr) hnow
    · obtain ⟨htask, hwoken⟩ := hother hji
      have hlater : s.now ≤ (s.served j queue u r).now := by
        rw [hnow]
        exact (s.client.serve_later r hb).le
      rw [if_neg hji]
      refine .passes htask (Nat.max_eq_right hlater).symm (fun _ hi => ?_) hwoken
      rw [hqueue] at hi
      exact hgrows.subset ((List.mem_cons.1 hi).resolve_left (Ne.symm hji))
  | @woken k a hqueue ha =>
    have hv : s.service? = none := by simp [service?, hqueue]
    have hwoken := wakeUntil_woken (s := { s with now := max s.now a }) a s.tasks.length ht
      (sleepers_le s.tasks)
    rw [hv]
    exact .passes hwoken.task (by simp) (fun _ hi => hwoken.queue.subset hi) hwoken.waits

/-- **What a move does to a caller** without patience of its own. -/
theorem fares_move (ht : s.tasks[i]? = some t) (hpatience : t.patience = none) (m : Move) :
    Fares i t s (s.move m) (servicesFor i (servicesOf s m)) := by
  cases m with
  | join job patience =>
    have hi : i < s.tasks.length := (List.getElem?_eq_some_iff.1 ht).1
    refine .still ?_ (by simp [move]) fun _ hi => (enqueue_queue _ _).1.subset hi
    simp only [move, enqueue_tasks]
    rw [List.getElem?_append_left hi, ht]
  | pass length =>
    have hwoken := wakeUntil_woken (s := { s with now := s.now + length }) (s.now + length)
      s.tasks.length ht (sleepers_le s.tasks)
    exact .passes hwoken.task (by simp [move]) (fun _ hi => hwoken.queue.subset hi) hwoken.waits
  | step =>
    unfold servicesOf move
    rcases hs : s.step with _ | s'
    · rw [service_none hs]
      exact .still ht rfl fun _ hi => hi
    · exact fares_step ht hpatience (step_cases hs)

/-- A step takes nobody from the queue but the first, and lets others in behind. -/
theorem step_queue {j : Nat} {queue : List Nat} (hqueue : s.queue = j :: queue) :
    queue <+: (s.move .step).queue := by
  unfold move
  rcases hs : s.step with _ | s'
  · -- There is somebody to look after.
    unfold step at hs
    rw [hqueue] at hs
    simp only at hs
    split at hs
    · cases hs
    · split at hs
      · cases hs
      · split at hs <;> cases hs
  · have hrest {j' : Nat} {queue' : List Nat} (h : s.queue = j' :: queue') : queue' = queue := by
      rw [hqueue] at h
      exact (List.cons.inj h).2.symm
    cases step_cases hs with
    | dropped h _ | lost h _ _ _ => simp [hrest h]
    | served h hu _ _ =>
      rw [← hrest h]
      exact (served_others _ _ _ _ hu).2.1
    | woken h _ =>
      rw [hqueue] at h
      cases h

end Moves

section Beats

variable {s : Schedule} {i start interval stop : Nat} {begun : List Nat} {beats : List Service}

theorem due_concat (start interval : Nat) (beats : List Service) (v : Service) :
    due start interval (beats ++ [v]) = due start interval beats ++ [v.call.now + interval] := by
  simp [due]

theorem due_length (start interval : Nat) (beats : List Service) :
    (due start interval beats).length = beats.length + 1 := by
  simp [due]

theorem restedSince_concat (start : Nat) (beats : List Service) (v : Service) :
    restedSince start (beats ++ [v]) = v.call.now := by
  simp [restedSince]

theorem begins_none {m : Move} {t t' : Task} (h : s.tasks[i]? = some t)
    (h' : (s.move m).tasks[i]? = some t')
    (hne : ∀ wake a b c d, t.stage = .asleep wake a b → t'.stage ≠ .beating c d) :
    begins? i s m = none := by
  unfold begins?
  rw [h, h']
  simp only [Option.map_some]
  split
  · next wake a b c d heq heq' => exact absurd (Option.some.inj heq') (hne _ _ _ _ _ (Option.some.inj heq))
  · rfl

/-- A sleeping heartbeat wakes up for its next beat, and for the signal. -/
theorem asleep_wakesBy (wake interval stop time : Nat) :
    (⟨.asleep wake interval stop, none⟩ : Task).wakesBy time = decide (min wake stop ≤ time) := rfl

/-- What a sleeping heartbeat does when it wakes up: the next beat begins, unless the signal comes first. -/
theorem asleep_awake (wake interval stop : Nat) :
    (⟨.asleep wake interval stop, none⟩ : Task).awake =
      if stop ≤ wake then .ended stop .stopped else .beating interval stop := rfl

/-- What a beat that was served leads to. -/
theorem beating_after {now : Nat} (result : Except Fault Answer) :
    (⟨.beating interval stop, none⟩ : Task).after now (some result) =
      if stop ≤ now then .ended now .stopped else .asleep (now + interval) interval stop := rfl

theorem Fares.now_le {t : Task} {s' : Schedule} {mine : List Service} (h : Fares i t s s' mine) :
    s.now ≤ s'.now := by
  cases h with
  | still _ hnow _ => exact Nat.le_of_eq hnow.symm
  | passes _ hnow _ _ => exact hnow ▸ Nat.le_max_left _ _
  | @served v _ _ hpatience hbegin _ hnow =>
    have hbefore : v.patience.before v.now = false := by rw [hpatience]; rfl
    rw [← hbegin, hnow]
    exact (v.client.serve_later v.request hbefore).le

theorem Regular.later {now now' : Nat} (h : Regular stop now begun beats) (hle : now ≤ now') :
    Regular stop now' begun beats :=
  ⟨h.early, fun a ha => Nat.le_trans (h.past a ha) hle, h.served⟩

/-- One more beat begins. -/
theorem Regular.begin {now wake : Nat} (h : Regular stop now begun beats) (hearly : wake < stop)
    (hpast : wake ≤ now) : Regular stop now (begun ++ [wake]) beats where
  early a ha := by
    rcases List.mem_append.1 ha with ha | ha
    · exact h.early a ha
    · rwa [List.mem_singleton.1 ha]
  past a ha := by
    rcases List.mem_append.1 ha with ha | ha
    · exact h.past a ha
    · rwa [List.mem_singleton.1 ha]
  served j v hv := by
    obtain ⟨hr, hpatience, a, ha, hle⟩ := h.served j v hv
    have hj : j < begun.length := (List.getElem?_eq_some_iff.1 ha).1
    exact ⟨hr, hpatience, a, by rw [List.getElem?_append_left hj]; exact ha, hle⟩

/-- One more beat is served, of those that have begun. -/
theorem Regular.serve {v : Service} (h : Regular stop v.now begun beats)
    (hlength : begun.length = beats.length + 1) (hr : v.request = .ping) (hpatience : v.patience = none) :
    Regular stop v.now begun (beats ++ [v]) where
  early := h.early
  past := h.past
  served j u hu := by
    rcases Nat.lt_or_ge j beats.length with hj | hj
    · rw [List.getElem?_append_left hj] at hu
      exact h.served j u hu
    · have hlast : j = beats.length := by
        have := (List.getElem?_eq_some_iff.1 hu).1
        simp only [List.length_append, List.length_singleton] at this
        omega
      rw [hlast, List.getElem?_concat_length] at hu
      cases hu
      have hj : j < begun.length := by omega
      exact ⟨hr, hpatience, begun[j], List.getElem?_eq_getElem hj, h.past _ (List.getElem_mem hj)⟩

/-- A sleeping heartbeat sleeps on, or begins its next beat, or stops. -/
theorem pulse_asleep {wake : Nat} (hregular : Regular stop s.now begun beats)
    (ht : s.tasks[i]? = some ⟨.asleep wake interval stop, none⟩)
    (hdue : begun ++ [wake] = due start interval beats) (hnow : s.now ≤ min wake stop)
    (hrested : restedSince start beats ≤ stop) (m : Move) :
    servicesFor i (servicesOf s m) = [] ∧
      Regular stop (s.move m).now (begun ++ (begins? i s m).toList) beats ∧
      Pulse i start interval stop (begun ++ (begins? i s m).toList) beats (s.move m) := by
  have hfares := fares_move ht rfl m
  have hlater := hregular.later hfares.now_le
  generalize servicesFor i (servicesOf s m) = mine at *
  cases hfares with
  | still ht' hnow' _ =>
    rw [begins_none ht ht' (by simp), Option.toList_none, List.append_nil]
    exact ⟨rfl, hlater, .asleep ht' hdue (hnow' ▸ hnow) hrested⟩
  | @passes time ht' hnow' _ hqueue =>
    have hwakesBy := asleep_wakesBy wake interval stop time
    by_cases hwakes : min wake stop ≤ time
    · rw [decide_eq_true hwakes] at hwakesBy
      rw [at_of_wakes hwakesBy, asleep_awake] at ht'
      by_cases hstop : stop ≤ wake
      · rw [if_pos hstop, ← Nat.max_eq_left hrested] at ht'
        rw [begins_none ht ht' (by simp), Option.toList_none, List.append_nil]
        exact ⟨rfl, hlater, .stopped ht' hdue hstop⟩
      · rw [if_neg hstop] at ht'
        have hbegins : begins? i s m = some wake := by simp [begins?, ht, ht']
        have hwaits : i ∈ (s.move m).queue := hqueue hwakesBy (by rw [asleep_awake, if_neg hstop]; rfl)
        rw [hbegins, Option.toList_some]
        exact ⟨rfl, hlater.begin (by omega) (by omega), .beating ht' hwaits hdue⟩
    · rw [decide_eq_false hwakes] at hwakesBy
      rw [at_of_not_wakes hwakesBy] at ht'
      rw [begins_none ht ht' (by simp), Option.toList_none, List.append_nil]
      exact ⟨rfl, hlater, .asleep ht' hdue (by omega) hrested⟩
  | served hr => cases hr

/-- A beat that waits for the connection waits on, or is served. -/
theorem pulse_beating (hregular : Regular stop s.now begun beats)
    (ht : s.tasks[i]? = some ⟨.beating interval stop, none⟩) (hi : i ∈ s.queue)
    (hdue : begun = due start interval beats) (m : Move)
    (hanswered : ∀ v ∈ servicesFor i (servicesOf s m), v.patience = none → v.call.result ≠ none) :
    begins? i s m = none ∧
      Regular stop (s.move m).now begun (beats ++ servicesFor i (servicesOf s m)) ∧
      Pulse i start interval stop begun (beats ++ servicesFor i (servicesOf s m)) (s.move m) := by
  have hfares := fares_move ht rfl m
  have hlater := hregular.later hfares.now_le
  have hnone {t' : Task} (h' : (s.move m).tasks[i]? = some t') : begins? i s m = none :=
    begins_none ht h' fun _ _ _ _ _ h => by cases h
  generalize servicesFor i (servicesOf s m) = mine at *
  cases hfares with
  | still ht' _ hqueue =>
    rw [List.append_nil]
    exact ⟨hnone ht', hlater, .beating ht' (hqueue rfl hi) hdue⟩
  | @passes time ht' _ hqueue _ =>
    rw [List.append_nil]
    exact ⟨hnone ht', hlater, .beating ht' (hqueue rfl hi) hdue⟩
  | @served v hr _ hpatience hbegin ht' hnow =>
    have hping : v.request = .ping := (Option.some.inj hr).symm
    have hregular' : Regular stop v.now begun (beats ++ [v]) :=
      Regular.serve (hbegin ▸ hregular) (by rw [hdue, due_length]) hping hpatience
    have hend : v.now ≤ v.call.now := by
      have hbefore : v.patience.before v.now = false := by rw [hpatience]; rfl
      exact (v.client.serve_later v.request hbefore).le
    refine ⟨hnone ht', hnow ▸ hregular'.later hend, ?_⟩
    obtain ⟨result, hresult⟩ :=
      Option.ne_none_iff_exists'.1 (hanswered v (List.mem_singleton_self v) hpatience)
    rw [hresult, beating_after] at ht'
    by_cases hstop : stop ≤ v.call.now
    · rw [if_pos hstop, ← Nat.max_eq_right hstop, ← restedSince_concat start beats v] at ht'
      refine .stopped ht' (by rw [due_concat, hdue]) ?_
      omega
    · rw [if_neg hstop] at ht'
      refine .asleep ht' (by rw [due_concat, hdue]) ?_ ?_
      · omega
      · rw [restedSince_concat]
        omega

/-- Nothing happens to a heartbeat that has stopped. -/
theorem pulse_stopped {wake : Nat} (hregular : Regular stop s.now begun beats)
    (ht : s.tasks[i]? = some ⟨.ended (max stop (restedSince start beats)) .stopped, none⟩)
    (hdue : begun ++ [wake] = due start interval beats) (hstop : stop ≤ wake) (m : Move) :
    begins? i s m = none ∧ servicesFor i (servicesOf s m) = [] ∧
      Regular stop (s.move m).now begun beats ∧
      Pulse i start interval stop begun beats (s.move m) := by
  have hfares := fares_move ht rfl m
  have hlater := hregular.later hfares.now_le
  generalize servicesFor i (servicesOf s m) = mine at *
  cases hfares with
  | still ht' _ _ =>
    exact ⟨begins_none ht ht' (by simp), rfl, hlater, .stopped ht' hdue hstop⟩
  | passes ht' _ _ _ =>
    exact ⟨begins_none ht ht' (fun _ _ _ _ _ h => by cases h), rfl, hlater, .stopped ht' hdue hstop⟩
  | served hr => cases hr

/-- **A heartbeat keeps its schedule in every move**, if its beats get a result. -/
theorem pulse_move (hregular : Regular stop s.now begun beats)
    (hpulse : Pulse i start interval stop begun beats s) (m : Move)
    (hanswered : ∀ v ∈ servicesFor i (servicesOf s m), v.patience = none → v.call.result ≠ none) :
    Regular stop (s.move m).now (begun ++ (begins? i s m).toList)
        (beats ++ servicesFor i (servicesOf s m)) ∧
      Pulse i start interval stop (begun ++ (begins? i s m).toList)
        (beats ++ servicesFor i (servicesOf s m)) (s.move m) := by
  cases hpulse with
  | asleep ht hdue hnow hrested =>
    obtain ⟨hnone, hkept⟩ := pulse_asleep hregular ht hdue hnow hrested m
    rw [hnone, List.append_nil]
    exact hkept
  | beating ht hi hdue =>
    obtain ⟨hnone, hkept⟩ := pulse_beating hregular ht hi hdue m hanswered
    rw [hnone, Option.toList_none, List.append_nil]
    exact hkept
  | stopped ht hdue hstop =>
    obtain ⟨hbegins, hnone, hkept⟩ := pulse_stopped hregular ht hdue hstop m
    rw [hbegins, hnone, Option.toList_none, List.append_nil, List.append_nil]
    exact hkept

/-- **A heartbeat keeps its schedule in every run.** -/
theorem pulse_moves (hregular : Regular stop s.now begun beats)
    (hpulse : Pulse i start interval stop begun beats s) (moves : List Move)
    (hanswered : ∀ v ∈ servicesFor i (services s moves), v.patience = none → v.call.result ≠ none) :
    Regular stop (moves.foldl move s).now (begun ++ beginnings i s moves)
        (beats ++ servicesFor i (services s moves)) ∧
      Pulse i start interval stop (begun ++ beginnings i s moves)
        (beats ++ servicesFor i (services s moves)) (moves.foldl move s) := by
  induction moves generalizing s begun beats with
  | nil => simpa [beginnings, services, servicesFor] using ⟨hregular, hpulse⟩
  | cons m moves ih =>
    rw [services, servicesFor_append] at hanswered ⊢
    obtain ⟨hregular', hpulse'⟩ := pulse_move hregular hpulse m fun v hv =>
      hanswered v (List.mem_append_left _ hv)
    have hrest := ih hregular' hpulse' fun v hv => hanswered v (List.mem_append_right _ hv)
    rw [List.foldl_cons, beginnings, ← List.append_assoc, ← List.append_assoc]
    exact hrest

/-- A heartbeat that has just begun. -/
theorem pulse_join (s : Schedule) (interval length : Nat) :
    let s' := s.move (.join (.heartbeat interval length) none)
    Regular (s.now + length) s'.now [] [] ∧
      Pulse s.tasks.length s.now interval (s.now + length) [] [] s' := by
  refine ⟨⟨by simp, by simp, by simp⟩, ?_⟩
  have hdue : [] ++ [s.now + interval] = due s.now interval [] := rfl
  refine .asleep ?_ hdue ?_ (Nat.le_add_right ..)
  · simp [move, Job.start]
  · simp only [move, enqueue_now]
    omega

end Beats

section Runs

variable {s : Schedule} {i : Nat} {k : Credentials} {dials : List Dial}

theorem services_append (s : Schedule) (moves more : List Move) :
    services s (moves ++ more) = services s moves ++ services (moves.foldl move s) more := by
  induction moves generalizing s with
  | nil => rfl
  | cons m moves ih => rw [List.cons_append, services, ih, services, List.foldl_cons, List.append_assoc]

/-- **A beat that waits for the connection is served**, after those that wait in front of it. -/
theorem beating_served {interval stop : Nat}
    (ht : s.tasks[i]? = some ⟨.beating interval stop, none⟩) (hi : i ∈ s.queue) :
    ∃ n v, servicesFor i (services s (List.replicate n .step)) = [v] := by
  obtain ⟨front, rest, hqueue⟩ := List.append_of_mem hi
  clear hi
  induction front generalizing s rest with
  | nil =>
    -- It is the first in the queue.
    refine ⟨1, ⟨i, .ping, none, s.now, s.client⟩, ?_⟩
    have hserved := service_served hqueue ht rfl rfl
    simp [services, servicesOf, hserved, servicesFor, Task.waiting]
  | cons j front ih =>
    have hfares := fares_move ht rfl .step
    have hmore (n : Nat) : servicesFor i (services s (List.replicate (n + 1) .step)) =
        servicesFor i (servicesOf s .step) ++
          servicesFor i (services (s.move .step) (List.replicate n .step)) := by
      rw [List.replicate_succ, services, servicesFor_append]
    have hbehind (ht' : (s.move .step).tasks[i]? = some ⟨.beating interval stop, none⟩) :
        ∃ n v, servicesFor i (services (s.move .step) (List.replicate n .step)) = [v] := by
      obtain ⟨more, hmore⟩ := step_queue hqueue
      exact ih ht' (rest ++ more) (by simpa using hmore.symm)
    generalize servicesFor i (servicesOf s .step) = mine at *
    cases hfares with
    | still ht' _ _ =>
      obtain ⟨n, v, hv⟩ := hbehind ht'
      exact ⟨n + 1, v, by rw [hmore, hv]; rfl⟩
    | passes ht' _ _ _ =>
      obtain ⟨n, v, hv⟩ := hbehind ht'
      exact ⟨n + 1, v, by rw [hmore, hv]; rfl⟩
    | @served v _ _ _ _ _ _ => exact ⟨1, v, by rw [hmore]; rfl⟩

/-- **The client changes only when somebody is served.** -/
theorem services_chained (s : Schedule) (moves : List Move) :
    Chained s.client (services s moves) (moves.foldl move s).client := by
  induction moves generalizing s with
  | nil => rfl
  | cons m moves ih =>
    have hrest := ih (s.move m)
    rw [services, List.foldl_cons]
    rcases move_serves s m with ⟨hnone, hclient⟩ | ⟨v, hv, hbefore, hafter⟩
    · rw [hnone, ← hclient]
      exact hrest
    · rw [hv]
      rw [hafter] at hrest
      exact ⟨hbefore, hrest⟩

/-- What a service for a command comes to. -/
theorem Service.lawful {v : Service} (h : v.client.Sound k dials) {text : String}
    (hcommand : v.request.command = some text) (hr : v.request ≠ .quit) :
    ∃ learnt, v.Lawful k text learnt := by
  have hserve := Client.serve_of_command (c := v.client) hcommand hr v.patience v.now
  refine ⟨(v.client.perform v.patience v.now text).result, by rw [Service.call, hserve],
    fun l hslot => ?_, fun hslot => ?_⟩
  · obtain ⟨hdialled, huses⟩ := Client.perform_uses hslot v.patience v.now text
    rw [Service.dials, Service.call, hserve]
    exact ⟨by simp only; omega, huses⟩
  · obtain ⟨hdialled, hopens⟩ := Client.perform_opens h.credentials_eq hslot
      (command_asked hcommand) (command_ne_quit hcommand hr) v.patience v.now
    rw [Service.dials, Service.call, hserve]
    exact ⟨by simp only; omega, hopens⟩

/-- **A heartbeat keeps its schedule and never cuts the connection off.** Whatever the sessions do, as long
as each of them greets or fails, and whatever other callers do before and after a heartbeat begins: its first
beat begins one interval after that, and each later one an interval after the end of the one before it,
whatever came of that; all that are due have begun; none begins from the signal to stop on. A beat that has
begun is served and gets a result, whether the signal has come meanwhile or not, and the heartbeat ends at
the signal or at the end of the beat that was going on.

The client changes only when somebody is served, and each service takes it over as the one before it has
left it. A command that finds a connection in the slot uses it and opens no stream; the connection is lost
only if the exchange ended in a fault that loses it or its caller gave up. So after such a fault the next
command, whoever asks for it, finds the slot empty, opens a stream, and is sent there after greeting, login
and choice of server. -/
theorem heartbeats_on_schedule (k : Credentials) (dials : List Dial) (exhausted : Fault)
    (patience : Deadline) (hgreets : ∀ p, .ok p ∈ dials → p.greets = true) (before after : List Move)
    (interval length : Nat) :
    let s₀ := play k dials exhausted patience before
    let i := s₀.tasks.length
    let s₁ := s₀.move (.join (.heartbeat interval length) none)
    let s := after.foldl move s₁
    let stop := s₀.now + length
    let begun := beginnings i s₁ after
    let log := services s₁ after
    let beats := servicesFor i log
    Regular stop s.now begun beats ∧ Pulse i s₀.now interval stop begun beats s ∧
    (∀ v ∈ beats, v.call.result ≠ none) ∧
    (begun.length = beats.length + 1 → ∃ n v,
      servicesFor i (services s (List.replicate n .step)) = [v] ∧ v.call.result ≠ none) ∧
    Chained s₁.client log s.client ∧
    ∀ v ∈ log, ∀ text, v.request.command = some text → v.request ≠ .quit →
      ∃ learnt, v.Lawful k text learnt := by
  intro s₀ i s₁ s stop begun log beats
  have hsound : s₁.client.Sound k dials :=
    move_sound (play_sound k dials exhausted patience before) _
  -- No beat is given up, whatever happens later.
  have hanswered (moves : List Move) :
      ∀ v ∈ servicesFor i (services s₁ moves), v.patience = none → v.call.result ≠ none := by
    intro v hv hnone
    have hv' : v.client.Sound k dials := services_sound hsound moves v (List.mem_filter.1 hv).1
    rw [Service.call, hnone]
    exact hv'.answers hgreets v.now v.request
  obtain ⟨hregular₁, hpulse₁⟩ := pulse_join s₀ interval length
  have hresults (moves : List Move) :
      ∀ v ∈ servicesFor i (services s₁ moves), v.call.result ≠ none := by
    intro v hv
    obtain ⟨hregular, -⟩ := pulse_moves hregular₁ hpulse₁ moves (hanswered moves)
    obtain ⟨j, hj⟩ := List.mem_iff_getElem?.1 hv
    exact hanswered moves v hv (hregular.served j v hj).2.1
  obtain ⟨hregular, hpulse⟩ := pulse_moves hregular₁ hpulse₁ after (hanswered after)
  rw [List.nil_append, List.nil_append] at hregular hpulse
  refine ⟨hregular, hpulse, hresults after, fun hlength => ?_, services_chained s₁ after,
    fun v hv text hcommand hr => Service.lawful (services_sound hsound after v hv) hcommand hr⟩
  -- All beats that were due have begun, so the last of them waits for the connection.
  have hwaits {wake : Nat} (hdue : begun ++ [wake] = due s₀.now interval beats) : False := by
    have hlengths := congrArg List.length hdue
    rw [due_length, List.length_append, hlength, List.length_singleton] at hlengths
    omega
  cases hpulse with
  | asleep ht hdue | stopped ht hdue => exact (hwaits hdue).elim
  | beating ht hi hdue =>
    obtain ⟨n, v, hv⟩ := beating_served ht hi
    have hmem : v ∈ servicesFor i (services s₁ (after ++ List.replicate n .step)) := by
      rw [services_append, servicesFor_append, hv]
      exact List.mem_append_right _ (List.mem_singleton_self v)
    exact ⟨n, v, hv, hresults _ v hmem⟩

/-- A heartbeat of one second with a signal after two and a half. The reply to its second beat comes after
the signal, and is waited for. -/
theorem heartbeats_on_schedule_late_reply :
    let ok := "error id=0 msg=ok\n\r"
    let peer : Peer := ⟨[.data (Utf8.encode ("TS3\n\rWelcome\n\r" ++ ok ++ ok ++ ok).toList),
      .silence 3000, .data (Utf8.encode ok.toList)], none⟩
    let s₀ := play ⟨"bot", "secret", "voice", 10011, 1⟩ [.ok peer] .closed none []
    let s₁ := s₀.move (.join (.heartbeat 1000 2500) none)
    let moves : List Move := [.step, .step, .step, .step]
    let begun := beginnings 0 s₁ moves
    (∀ p, .ok p ∈ [(.ok peer : Dial)] → p.greets = true) ∧ begun = [1000, 2000] ∧
      (moves.foldl move s₁).now = 5000 ∧ (∀ a ∈ begun, a < 2500) ∧
      ∀ v ∈ servicesFor 0 (services s₁ moves), v.call.result ≠ none := by
  intro ok peer s₀ s₁ moves begun
  have hgreets : ∀ p, .ok p ∈ [(.ok peer : Dial)] → p.greets = true := by
    intro p hp
    cases List.mem_singleton.1 hp
    decide +kernel
  obtain ⟨hregular, -, hresults, -⟩ := heartbeats_on_schedule
    ⟨"bot", "secret", "voice", 10011, 1⟩ [.ok peer] .closed none hgreets [] moves 1000 2500
  have hstop : s₀.now + 2500 = 2500 := by decide +kernel
  exact ⟨hgreets, by decide +kernel, by decide +kernel, hstop ▸ hregular.early, hresults⟩

/-- A look-up of the roster and a heartbeat. The first beat gets no reply and the connection is given up;
the look-up, whose second command comes next, sets one up again; and the second beat finds it and opens no
stream. -/
theorem connection_set_up_by_another :
    let ok := "error id=0 msg=ok\n\r"
    let welcome := "TS3\n\rWelcome\n\r" ++ ok ++ ok
    let script (lines : String) : List Step := [.data (Utf8.encode lines.toList)]
    let anna := "clid=4 cid=1 client_nickname=Anna client_type=0\n\r" ++ ok
    let lobby := "cid=1 channel_name=Lobby\n\r" ++ ok
    let first : Peer := ⟨script welcome ++ .silence 5000 :: script anna, none⟩
    let second : Peer := ⟨script (welcome ++ lobby ++ ok), none⟩
    let s := play ⟨"bot", "secret", "voice", 10011, 1⟩ [.ok first, .ok second] .closed none
      [.join (.roster []) none, .join (.heartbeat 1000 16500) none]
    let beats := servicesFor 1 (services s (List.replicate 5 .step))
    beats.map (fun v => (v.client.slot.isSome, v.call.client.slot.isSome, v.dials)) =
      [(true, false, 0), (true, true, 0)] := by
  decide +kernel

end Runs

end Schedule

end VoiceRelay
