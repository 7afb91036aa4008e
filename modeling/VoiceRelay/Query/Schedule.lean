import VoiceRelay.Query.Client

/-!
# Callers that share the connection

Several callers may use the shared connection at the same time. Each waits for it in the order of
its asking, has it for one command, and may ask again: to look up a roster takes two commands, and a
heartbeat asks at intervals until it is told to stop. A caller may give up at a given time.

**Design.** A `Task` is a caller in one of a few stages. The schedule serves the caller at the head
of the queue, lets the callers that woke up meanwhile join the queue, and lets the one just served
join it again after them. While nobody waits, the clock moves on to the next waking.

**Heartbeat.** The first beat starts one interval after the task, each later one an interval after
the previous beat ended. A stop is noticed while asleep; a beat in progress is finished first. If
the caller of a heartbeat gives up, that is a stop, too; the caller does not wait for the beat in
progress, so the connection can stay in use after all callers have gone on.
-/

namespace VoiceRelay

/-- What a task has come to. -/
inductive Ending
  | answered (result : Except Fault Answer)
  | rooms (result : Except Fault (List Room))
  | stopped
  | gaveUp

/-- Where a task stands. -/
inductive Stage
  | asking (r : Request)
  | askingOccupants (hidden : List Nat)
  | askingChannels (hidden : List Nat) (clients : List Occupant)
  | beating (interval : Nat) (stop : Nat)
  | asleep (wake : Nat) (interval : Nat) (stop : Nat)
  | ended (time : Nat) (e : Ending)

/-- A caller: where it stands and when it gives up. -/
structure Task where
  stage : Stage
  patience : Deadline

/-- What a caller sets out to do. -/
inductive Job
  | request (r : Request)
  | roster (hidden : List Nat)
  | heartbeat (interval length : Nat)

namespace Stage

/-- What the task waits for the connection with, if it does. -/
def request? : Stage → Option Request
  | asking r => some r
  | askingOccupants _ => some .occupants
  | askingChannels _ _ => some .channels
  | beating _ _ => some .ping
  | _ => none

/-- Where the task stands after its request was answered. -/
def after (now : Nat) (result : Except Fault Answer) : Stage → Stage
  | asking _ => ended now (.answered result)
  | askingOccupants hidden =>
    match result with
    | .error f => ended now (.rooms (.error f))
    | .ok (.occupants list) => askingChannels hidden list
    | .ok _ => askingChannels hidden []
  | askingChannels hidden clients =>
    match result with
    | .error f => ended now (.rooms (.error f))
    | .ok (.channels list) => ended now (.rooms (.ok (Roster.join clients list hidden)))
    | .ok _ => ended now (.rooms (.ok (Roster.join clients [] hidden)))
  | beating interval stop =>
    if stop ≤ now then ended now .stopped else asleep (now + interval) interval stop
  | s => s

/-- When a sleeping task does something by itself. -/
def alarm? : Stage → Option Nat
  | asleep wake _ stop => some (min wake stop)
  | _ => none

/-- What a sleeping task does then. -/
def awake : Stage → Stage
  | asleep wake interval stop => if stop ≤ wake then ended stop .stopped else beating interval stop
  | s => s

/-- Whether the task goes on without its caller until its request is answered. -/
def detached : Stage → Bool
  | beating _ _ => true
  | _ => false

end Stage

namespace Task

/-- The stage of a task whose caller has given up. -/
def lost (t : Task) (now : Nat) : Stage := .ended (t.patience.getD now) .gaveUp

/-- When a sleeping task does something by itself, or its caller gives up. -/
def alarm? (t : Task) : Option Nat :=
  t.stage.alarm?.map fun a => (t.patience.earlier (some a)).getD a

/-- What happens to a sleeping task then. -/
def awake (t : Task) : Stage :=
  match t.stage.alarm? with
  | some a => if t.patience.before a then t.lost a else t.stage.awake
  | none => t.stage

/-- How long the caller waits for the answer to a request. -/
def waiting (t : Task) : Deadline := if t.stage.detached then none else t.patience

/-- Where the task stands after its request was answered, or its caller gave up. -/
def after (t : Task) (now : Nat) (result : Option (Except Fault Answer)) : Stage :=
  match result with
  | none => t.lost now
  | some r => if t.stage.detached && t.patience.before now then t.lost now else t.stage.after now r

end Task

namespace Job

/-- Where a task begins. A request that needs no connection is answered at once. -/
def start (now : Nat) : Job → Stage
  | request r => if r.waits then .asking r else .ended now (.answered (.ok .done))
  | roster hidden => .askingOccupants hidden
  | heartbeat interval length => .asleep (now + interval) interval (now + length)

/-- A bound on the turns that a job takes. -/
def turns : Job → Nat
  | request _ => 1
  | roster _ => 2
  | heartbeat interval length => 2 * (length / max 1 interval + 2)

end Job

/-- All callers, the queue for the connection (as positions in the list), and the client. -/
structure Schedule where
  now : Nat
  client : Client
  tasks : List Task
  queue : List Nat

/-- A client between calls: the time, and the time from which the connection is not in use. -/
structure Shared where
  now : Nat
  free : Nat
  client : Client

namespace Schedule

section Defs

/-- Changes the stage of one task. -/
def setStage (tasks : List Task) (i : Nat) (s : Stage) : List Task :=
  tasks.modify i (fun t => { t with stage := s })

/-- The position and alarm of the sleeping task that does something first. -/
def firstAlarm (tasks : List Task) : Option (Nat × Nat) :=
  tasks.zipIdx.foldl
    (fun best (t, i) =>
      match t.alarm?, best with
      | none, _ => best
      | some a, none => some (i, a)
      | some a, some (_, b) => if a < b then some (i, a) else best)
    none

/-- A task enters the queue if it waits for the connection. -/
def enqueue (s : Schedule) (i : Nat) : Schedule :=
  match s.tasks[i]? with
  | none => s
  | some t => if t.stage.request?.isSome then { s with queue := s.queue ++ [i] } else s

/-- Lets the sleeping tasks that wake up by a time do so, one after the other. -/
def wakeUntil (time : Nat) : Nat → Schedule → Schedule
  | 0, s => s
  | n + 1, s =>
    match firstAlarm s.tasks with
    | none => s
    | some (i, a) =>
      if time < a then s
      else
        match s.tasks[i]? with
        | none => s
        | some t => wakeUntil time n (enqueue { s with tasks := setStage s.tasks i t.awake } i)

/-- Serves the task at the head of the queue, or moves on to the next waking; `none` if nothing is
left to do. -/
def step (s : Schedule) : Option Schedule :=
  match s.queue with
  | i :: queue =>
    match s.tasks[i]? with
    | none => some { s with queue := queue }
    | some t =>
      match t.stage.request? with
      | none => some { s with queue := queue }
      | some r =>
        if t.waiting.before s.now then
          some { s with queue := queue, tasks := setStage s.tasks i (t.lost s.now) }
        else
          let call := s.client.serve t.waiting s.now r
          let stage := t.after call.now call.result
          let woken := wakeUntil call.now s.tasks.length
            { now := call.now, client := call.client, tasks := s.tasks, queue := queue }
          some (enqueue { woken with tasks := setStage woken.tasks i stage } i)
  | [] =>
    match firstAlarm s.tasks with
    | none => none
    | some (_, a) =>
      some (wakeUntil a s.tasks.length { s with now := max s.now a })

/-- Runs until nothing is left to do. -/
def run : Nat → Schedule → Schedule
  | 0, s => s
  | n + 1, s =>
    match s.step with
    | none => s
    | some s => run n s

/-- Some jobs begun together, in order, each with the time at which its caller gives up. The first
of them can have the connection when it is free. -/
def ofJobs (c : Shared) (jobs : List (Job × Deadline)) : Schedule :=
  let tasks := jobs.map fun (j, patience) => ⟨j.start c.now, patience⟩
  let s := (List.range jobs.length).foldl enqueue ⟨c.now, c.client, tasks, []⟩
  wakeUntil c.free tasks.length { s with now := max c.now c.free }

/-- What each task has come to; one that still waits never ends. -/
def endings (s : Schedule) : List Ending :=
  s.tasks.map fun t =>
    match t.stage with
    | .ended _ e => e
    | _ => .gaveUp

/-- When the last caller went on. -/
def lastEnd (start : Nat) (s : Schedule) : Nat :=
  s.tasks.foldl
    (fun time t =>
      match t.stage with
      | .ended last _ => max time last
      | _ => max time s.now)
    start

/-- Runs some jobs begun together. -/
def together (c : Shared) (jobs : List (Job × Deadline)) : List Ending × Shared :=
  let fuel := jobs.foldl (fun n job => n + job.1.turns) jobs.length
  let s := run fuel (ofJobs c jobs)
  (s.endings, ⟨s.lastEnd c.now, s.now, s.client⟩)

end Defs

end Schedule
end VoiceRelay
