import VoiceRelay.Proofs.Serving

/-!
# Who wakes up by a given time

The schedule lets sleeping callers wake up one after the other, the one with the earliest alarm first.
After that everybody has woken up whose alarm has come by the given time, and nobody else; those who then
want the connection stand at the end of the queue.

**Design.** `sooner` is one step of the search for the earliest alarm, and `Earliest` says what the search
has found so far. `Woken` is what some wakings come to for one caller; it is put together from single
wakings. A caller that woke up does not sleep any more, so the number of `sleepers` bounds their number.

**Results.**

- `firstAlarm_earliest`: the search finds the earliest alarm.
- `Woken.own`, `Woken.other`: what one waking does.
- `wakeUntil_woken`: what becomes of each caller and of the queue.
-/

namespace VoiceRelay

section Defs

/-- Whether the alarm of a task has come by a time. -/
def Task.wakesBy (t : Task) (time : Nat) : Bool := t.alarm?.any (· ≤ time)

/-- A task after the time by which others and perhaps itself woke up. -/
def Task.at (t : Task) (time : Nat) : Task :=
  if t.wakesBy time then { t with stage := t.awake } else t

namespace Schedule

/-- How many tasks sleep. -/
def sleepers (tasks : List Task) : Nat := tasks.countP fun t => t.alarm?.isSome

/-- The earlier one of the alarms found so far and that of one more task. -/
def sooner (best : Option (Nat × Nat)) (p : Task × Nat) : Option (Nat × Nat) :=
  match p.1.alarm?, best with
  | none, _ => best
  | some a, none => some (p.2, a)
  | some a, some (_, b) => if a < b then some (p.2, a) else best

/-- What the search has found among some tasks, each with its position: the position and the alarm of one
whose alarm is the earliest, if any of them sleeps. -/
inductive Earliest (pairs : List (Task × Nat)) : Option (Nat × Nat) → Prop
  | nobody : (∀ p ∈ pairs, p.1.alarm? = none) → Earliest pairs none
  | first {t : Task} {i a : Nat} : (t, i) ∈ pairs → t.alarm? = some a →
      (∀ p ∈ pairs, ∀ b, p.1.alarm? = some b → a ≤ b) → Earliest pairs (some (i, a))

/-- What becomes of a caller while everybody wakes up whose alarm has come: it wakes up itself if its own
has come, and stands in the queue then if it wants the connection. The queue only grows at its end. -/
structure Woken (time i : Nat) (t : Task) (s s' : Schedule) : Prop where
  task : s'.tasks[i]? = some (t.at time)
  queue : s.queue <+: s'.queue
  waits : t.wakesBy time = true → t.awake.request?.isSome = true → i ∈ s'.queue

end Schedule

end Defs

namespace Schedule

section Alarms

variable {tasks : List Task} {s : Schedule} {i : Nat} {t : Task}

theorem Earliest.push {pairs : List (Task × Nat)} {best : Option (Nat × Nat)}
    (h : Earliest pairs best) (p : Task × Nat) : Earliest (pairs ++ [p]) (sooner best p) := by
  obtain ⟨t, i⟩ := p
  unfold sooner
  rcases ht : t.alarm? with _ | a
  · simp only
    cases h with
    | nobody hnone =>
      refine .nobody fun q hq => ?_
      rcases List.mem_append.1 hq with hq | hq
      · exact hnone q hq
      · rw [List.mem_singleton.1 hq]
        exact ht
    | first hmem ha hleast =>
      refine .first (List.mem_append_left _ hmem) ha fun q hq b hb => ?_
      rcases List.mem_append.1 hq with hq | hq
      · exact hleast q hq b hb
      · rw [List.mem_singleton.1 hq, ht] at hb
        cases hb
  · have hnew : ∀ p : Task × Nat, p ∈ [(t, i)] → ∀ b, p.1.alarm? = some b → a = b := by
      intro q hq b hb
      rw [List.mem_singleton.1 hq, ht] at hb
      exact Option.some.inj hb
    cases h with
    | nobody hnone =>
      refine .first (List.mem_append_right _ (List.mem_singleton_self _)) ht fun q hq b hb => ?_
      rcases List.mem_append.1 hq with hq | hq
      · rw [hnone q hq] at hb
        cases hb
      · exact Nat.le_of_eq (hnew q hq b hb)
    | @first u j b hmem hb hleast =>
      simp only
      split
      · next hlt =>
        refine .first (List.mem_append_right _ (List.mem_singleton_self _)) ht fun q hq c hc => ?_
        rcases List.mem_append.1 hq with hq | hq
        · exact Nat.le_trans (Nat.le_of_lt hlt) (hleast q hq c hc)
        · exact Nat.le_of_eq (hnew q hq c hc)
      · next hle =>
        refine .first (List.mem_append_left _ hmem) hb fun q hq c hc => ?_
        rcases List.mem_append.1 hq with hq | hq
        · exact hleast q hq c hc
        · rw [← hnew q hq c hc]
          exact Nat.le_of_not_lt hle

theorem earliest_foldl {seen : List (Task × Nat)} {best : Option (Nat × Nat)}
    (h : Earliest seen best) (pairs : List (Task × Nat)) :
    Earliest (seen ++ pairs) (pairs.foldl sooner best) := by
  induction pairs generalizing seen best with
  | nil => simpa using h
  | cons p pairs ih => simpa using ih (h.push p)

/-- **The search finds the earliest alarm.** -/
theorem firstAlarm_earliest (tasks : List Task) :
    Earliest tasks.zipIdx (firstAlarm tasks) := by
  have hstart : Earliest [] none := .nobody (by simp)
  exact earliest_foldl hstart tasks.zipIdx

theorem mem_zipIdx (h : tasks[i]? = some t) : (t, i) ∈ tasks.zipIdx :=
  List.mem_zipIdx_iff_getElem?.2 h

theorem awake_alarm (t : Task) : ({ t with stage := t.awake } : Task).alarm? = none := by
  obtain ⟨stage, patience⟩ := t
  cases stage with
  | asleep wake interval stop =>
    simp only [Task.awake, Stage.alarm?]
    split
    · rfl
    · unfold Stage.awake
      simp only
      split <;> rfl
  | _ => rfl

/-- A caller that wakes up sleeps no more, and nobody else wakes up with it. -/
theorem sleepers_awake {a : Nat} (ht : tasks[i]? = some t) (ha : t.alarm? = some a) :
    sleepers (setStage tasks i t.awake) + 1 = sleepers tasks := by
  obtain ⟨front, rest, rfl, rfl⟩ : ∃ front rest, tasks = front ++ t :: rest ∧ front.length = i := by
    obtain ⟨hi, rfl⟩ := List.getElem?_eq_some_iff.1 ht
    exact ⟨tasks.take i, tasks.drop (i + 1), by simp, by simp; omega⟩
  rw [setStage_append]
  simp only [sleepers, List.countP_append, List.countP_cons, awake_alarm, ha, Option.isSome_none,
    Option.isSome_some, Bool.false_eq_true, if_false, if_true]
  omega

end Alarms

section Wakings

variable {s : Schedule} {i : Nat} {t : Task}

theorem enqueue_queue (s : Schedule) (i : Nat) :
    s.queue <+: (s.enqueue i).queue ∧
      ∀ t, s.tasks[i]? = some t → t.stage.request?.isSome = true → i ∈ (s.enqueue i).queue := by
  unfold enqueue
  rcases hi : s.tasks[i]? with _ | t
  · exact ⟨List.prefix_refl _, by simp⟩
  · simp only
    split
    · exact ⟨List.prefix_append _ _, fun _ _ _ => by simp⟩
    · next hidle =>
      refine ⟨List.prefix_refl _, fun u hu hr => ?_⟩
      cases hu
      exact absurd hr hidle

theorem wakesBy_of_later {time : Nat} (h : ∀ a, t.alarm? = some a → time < a) :
    t.wakesBy time = false := by
  unfold Task.wakesBy
  rcases ha : t.alarm? with _ | a
  · rfl
  · simp [Nat.not_le.2 (h a ha)]

theorem at_of_wakes {time : Nat} (h : t.wakesBy time = true) :
    t.at time = { t with stage := t.awake } := by
  rw [Task.at, if_pos h]

theorem at_of_not_wakes {time : Nat} (h : t.wakesBy time = false) : t.at time = t := by
  rw [Task.at, h]
  rfl

variable {s' : Schedule} {time : Nat}

/-- Nothing happens as long as the alarm has not come. -/
theorem Woken.refl (ht : s.tasks[i]? = some t) (h : t.wakesBy time = false) :
    Woken time i t s s where
  task := by rw [ht, at_of_not_wakes h]
  queue := List.prefix_refl _
  waits hwakes := by
    rw [h] at hwakes
    cases hwakes

/-- The caller itself wakes up first. -/
theorem Woken.own (ht : s.tasks[i]? = some t) (hwakes : t.wakesBy time = true)
    (h : Woken time i { t with stage := t.awake }
      (enqueue { s with tasks := setStage s.tasks i t.awake } i) s') : Woken time i t s s' := by
  obtain ⟨hgrows, hjoins⟩ := enqueue_queue { s with tasks := setStage s.tasks i t.awake } i
  have hset : (setStage s.tasks i t.awake)[i]? = some { t with stage := t.awake } := by
    simp [getElem?_setStage, ht]
  have hstays : ({ t with stage := t.awake } : Task).wakesBy time = false :=
    wakesBy_of_later fun a ha => by rw [awake_alarm] at ha; cases ha
  exact ⟨by rw [h.task, at_of_not_wakes hstays, at_of_wakes hwakes], hgrows.trans h.queue,
    fun _ hr => h.queue.subset (hjoins _ hset hr)⟩

/-- Somebody else wakes up first. -/
theorem Woken.other {k : Nat} {stage : Stage}
    (h : Woken time i t (enqueue { s with tasks := setStage s.tasks k stage } k) s') :
    Woken time i t s s' :=
  ⟨h.task, (enqueue_queue { s with tasks := setStage s.tasks k stage } k).1.trans h.queue, h.waits⟩

/-- **Everybody wakes up whose alarm has come**, and nobody else. -/
theorem wakeUntil_woken (time n : Nat) (ht : s.tasks[i]? = some t) (hn : sleepers s.tasks ≤ n) :
    Woken time i t s (wakeUntil time n s) := by
  induction n generalizing s t with
  | zero =>
    have hasleep := List.countP_eq_zero.1 (Nat.le_zero.1 hn) t (List.mem_of_getElem? ht)
    exact .refl ht (wakesBy_of_later fun a ha => by simp [ha] at hasleep)
  | succ n ih =>
    have hsearch := firstAlarm_earliest s.tasks
    unfold wakeUntil
    generalize firstAlarm s.tasks = found at *
    cases hsearch with
    | nobody hnone =>
      exact .refl ht (wakesBy_of_later fun a ha => by rw [hnone _ (mem_zipIdx ht)] at ha; cases ha)
    | @first u k a hmem ha hleast =>
      have hu : s.tasks[k]? = some u := List.mem_zipIdx_iff_getElem?.1 hmem
      simp only [hu]
      split
      · next hlate =>
        exact .refl ht (wakesBy_of_later fun b hb =>
          Nat.lt_of_lt_of_le hlate (hleast _ (mem_zipIdx ht) b hb))
      · next hdue =>
        have hfewer : sleepers (enqueue { s with tasks := setStage s.tasks k u.awake } k).tasks ≤ n := by
          have hone := sleepers_awake hu ha
          rw [enqueue_tasks]
          exact Nat.le_of_succ_le_succ (Nat.le_trans (Nat.le_of_eq hone) hn)
        by_cases hki : k = i
        · subst hki
          rw [ht] at hu
          cases hu
          have hwakes : t.wakesBy time = true := by simp [Task.wakesBy, ha, Nat.le_of_not_lt hdue]
          exact .own ht hwakes (ih (by simp [getElem?_setStage, ht]) hfewer)
        · exact .other (ih (by simp [getElem?_setStage, hki, ht]) hfewer)

theorem sleepers_le (tasks : List Task) : sleepers tasks ≤ tasks.length := List.countP_le_length

end Wakings

end Schedule

end VoiceRelay
