import VoiceRelay.Query.Schedule

/-!
# What a step of the schedule does

A step looks at the caller at the head of the queue: it is served, or it is no longer there to be
served. With nobody in the queue the clock moves on to the next waking.

**Design.** `served` is the schedule after a caller was served, the callers that woke up meanwhile
included. `Steps` is the step function read as a relation, with one constructor per branch.

**Results.**

- `step_cases`, `step_served`: what a step does, and when it serves.
- `wakeUntil_tasks`: what waking keeps of every caller holds after all wakings.
-/

namespace VoiceRelay

namespace Schedule

section Defs

/-- What a caller with one request comes to when it was served. -/
def endingOf : Option (Except Fault Answer) → Ending
  | some result => .answered result
  | none => .gaveUp

/-- The schedule after the caller at position `i` was served and others woke up meanwhile. -/
def served (s : Schedule) (i : Nat) (queue : List Nat) (t : Task) (r : Request) : Schedule :=
  let call := s.client.serve t.waiting s.now r
  let woken := wakeUntil call.now s.tasks.length ⟨call.now, call.client, s.tasks, queue⟩
  enqueue { woken with tasks := setStage woken.tasks i (t.after call.now call.result) } i

/-- What a step does. -/
inductive Steps (s : Schedule) : Schedule → Prop
  | dropped {i : Nat} {queue : List Nat} : s.queue = i :: queue →
      (∀ t, s.tasks[i]? = some t → t.stage.request? = none) → Steps s { s with queue := queue }
  | lost {i : Nat} {queue : List Nat} {t : Task} {r : Request} : s.queue = i :: queue →
      s.tasks[i]? = some t → t.stage.request? = some r → t.waiting.before s.now = true →
      Steps s { s with queue := queue, tasks := setStage s.tasks i (t.lost s.now) }
  | served {i : Nat} {queue : List Nat} {t : Task} {r : Request} : s.queue = i :: queue →
      s.tasks[i]? = some t → t.stage.request? = some r → t.waiting.before s.now = false →
      Steps s (s.served i queue t r)
  | woken {i a : Nat} : s.queue = [] → firstAlarm s.tasks = some (i, a) →
      Steps s (wakeUntil a s.tasks.length { s with now := max s.now a })

end Defs

section Steps

variable {s s' : Schedule}

theorem step_cases (h : s.step = some s') : Steps s s' := by
  unfold step at h
  split at h
  · next i queue hqueue =>
    split at h
    · next hi =>
      cases h
      exact .dropped hqueue fun t ht => by rw [hi] at ht; cases ht
    · next t hi =>
      split at h
      · next hr =>
        cases h
        exact .dropped hqueue fun u hu => by rw [hi] at hu; cases hu; exact hr
      · next r hr =>
        split at h
        · next hb =>
          cases h
          exact .lost hqueue hi hr hb
        · next hb =>
          cases h
          exact .served hqueue hi hr (by simpa using hb)
  · next hqueue =>
    split at h
    · cases h
    · next i a ha =>
      cases h
      exact .woken hqueue ha

theorem step_served {i : Nat} {queue : List Nat} {t : Task} {r : Request}
    (hqueue : s.queue = i :: queue) (ht : s.tasks[i]? = some t) (hr : t.stage.request? = some r)
    (hb : t.waiting.before s.now = false) : s.step = some (s.served i queue t r) := by
  unfold step served
  simp [hqueue, ht, hr, hb]

theorem step_none (hqueue : s.queue = []) (ha : firstAlarm s.tasks = none) : s.step = none := by
  unfold step
  simp [hqueue, ha]

end Steps

section Frames

variable {s : Schedule}

@[simp] theorem enqueue_tasks (s : Schedule) (i : Nat) : (s.enqueue i).tasks = s.tasks := by
  unfold enqueue
  split
  · rfl
  · split <;> rfl

theorem getElem?_setStage (tasks : List Task) (i j : Nat) (stage : Stage) :
    (setStage tasks i stage)[j]? =
      if i = j then tasks[j]?.map (fun t => { t with stage := stage }) else tasks[j]? := by
  unfold setStage
  rw [List.getElem?_modify]
  by_cases h : i = j <;> simp [h]

@[simp] theorem setStage_length (tasks : List Task) (i : Nat) (stage : Stage) :
    (setStage tasks i stage).length = tasks.length := by
  simp [setStage]

/-- The stage of the caller right after some others. -/
theorem setStage_append (front rest : List Task) (t : Task) (stage : Stage) :
    setStage (front ++ t :: rest) front.length stage =
      front ++ { t with stage := stage } :: rest := by
  unfold setStage
  induction front with
  | nil => rfl
  | cons u front ih => simpa using ih

@[simp] theorem wakeUntil_length (time n : Nat) (s : Schedule) :
    (wakeUntil time n s).tasks.length = s.tasks.length := by
  induction n generalizing s with
  | zero => rfl
  | succ n ih =>
    unfold wakeUntil
    split
    · rfl
    · split
      · rfl
      · split
        · rfl
        · rw [ih, enqueue_tasks, setStage_length]

/-- What waking keeps of every caller holds after all wakings. -/
theorem wakeUntil_tasks {P : Nat → Task → Prop}
    (hP : ∀ i t, P i t → P i { t with stage := t.awake }) (time n : Nat)
    (h : ∀ i t, s.tasks[i]? = some t → P i t) :
    ∀ i t, (wakeUntil time n s).tasks[i]? = some t → P i t := by
  induction n generalizing s with
  | zero => exact h
  | succ n ih =>
    unfold wakeUntil
    split
    · exact h
    · next j a _ =>
      split
      · exact h
      · split
        · exact h
        · next u hu =>
          refine ih fun i t ht => ?_
          rw [enqueue_tasks, getElem?_setStage] at ht
          split at ht
          · next hij =>
            subst hij
            rw [hu] at ht
            cases ht
            exact hP j u (h j u hu)
          · exact h i t ht

/-- Nothing happens to a caller that does not sleep while others wake up. -/
theorem wakeUntil_waiting {tasks : List Task} {i : Nat} {t : Task} (ht : tasks[i]? = some t)
    (ha : t.stage.alarm? = none) (time n now : Nat) (c : Client) (queue : List Nat) :
    (wakeUntil time n ⟨now, c, tasks, queue⟩).tasks[i]? = some t := by
  have hi : i < (wakeUntil time n ⟨now, c, tasks, queue⟩).tasks.length := by
    rw [wakeUntil_length]
    exact (List.getElem?_eq_some_iff.1 ht).1
  have hsame := wakeUntil_tasks (P := fun j u => j = i → u = t) (s := ⟨now, c, tasks, queue⟩) ?_
    time n ?_ i _ (List.getElem?_eq_getElem hi) rfl
  · rw [List.getElem?_eq_getElem hi, hsame]
  · intro j u hu hj
    rw [hu hj]
    simp [Task.awake, ha]
  · intro j u hu hj
    rw [hj, ht] at hu
    exact (Option.some.inj hu).symm

/-- Where nobody sleeps, nobody wakes up. -/
theorem firstAlarm_none {tasks : List Task} (h : ∀ t ∈ tasks, t.alarm? = none) :
    firstAlarm tasks = none := by
  have hpairs : ∀ p ∈ tasks.zipIdx, p.1.alarm? = none := fun p hp =>
    h p.1 (List.fst_mem_of_mem_zipIdx hp)
  unfold firstAlarm
  generalize tasks.zipIdx = pairs at hpairs
  induction pairs with
  | nil => rfl
  | cons p ps ih =>
    rw [List.foldl_cons]
    simp only [hpairs p (List.mem_cons_self ..)]
    exact ih fun q hq => hpairs q (List.mem_cons_of_mem p hq)

theorem wakeUntil_of_awake {tasks : List Task} (h : ∀ t ∈ tasks, t.alarm? = none) (time n now : Nat)
    (c : Client) (queue : List Nat) :
    wakeUntil time n ⟨now, c, tasks, queue⟩ = ⟨now, c, tasks, queue⟩ := by
  cases n with
  | zero => rfl
  | succ n =>
    unfold wakeUntil
    rw [firstAlarm_none h]

end Frames

end Schedule
end VoiceRelay
