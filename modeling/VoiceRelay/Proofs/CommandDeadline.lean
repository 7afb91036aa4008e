import VoiceRelay.Proofs.Clock
import VoiceRelay.Proofs.TimelyReading

/-!
# The deadline of a command

One time limit spans a whole reply, and the reply is read in a loop of reads of which each may give a part
of it or nothing. What decides a command is the first status line, the end of the stream or a trouble. None
of the lines and parts of lines before it moves the deadline, in whatever pieces and with whatever pauses
they come, and what is decided no later than the deadline still counts.

**Design.** `Outlook.decision` follows what comes next, line by line and without a deadline, to what decides
the reply. No further line is written during a reply, so a step of the other side that waits for one never
ends.

**Results.**

- `reply_decided`: a reply ends as decided, or without a result at its deadline.
- `command_decided`: so does a command, which then fails for its time limit.
-/

namespace VoiceRelay

section Defs

/-- When lines are written, if some have been written and no more will be. -/
def writtenSoFar (lines n : Nat) : Option Nat := if n ≤ lines then some 0 else none

/-- What decides a reply, and when: the first status line, the end of the stream, or a trouble. Some records
have come before. -/
def Outlook.decision (o : Outlook) (lines now : Nat) (records : List Record) :
    Option (Nat × Except Fault (List Record)) :=
  match _h : o.arrival (writtenSoFar lines) now with
  | none => none
  | some a =>
    match _ht : a.heard with
    | .nothing => none
    | .ended => some (a.time, .error .closed)
    | .failed t => some (a.time, .error (.stream t))
    | .line text =>
      match Status.parse? text with
      | some s => some (a.time, if s.isOk then .ok records else .error (.refusal s.id s.message))
      | none => a.next.decision lines a.time (records ++ Link.recordsIn text)
  termination_by o.weight
  decreasing_by exact (arrival_weight _h).2 text _ht

/-- A result if there is one no later than a time, and when the wait for it ends. -/
def inTime {α : Type} (limit : Nat) : Option (Nat × α) → Option α × Nat
  | some (time, result) => if time ≤ limit then (some result, time) else (none, limit)
  | none => (none, limit)

end Defs

section Decisions

variable {o : Outlook} {lines now : Nat} {records : List Record}

theorem decision_eq (o : Outlook) (lines now : Nat) (records : List Record) :
    o.decision lines now records =
      match o.arrival (writtenSoFar lines) now with
      | none => none
      | some a =>
        match a.heard with
        | .nothing => none
        | .ended => some (a.time, .error .closed)
        | .failed t => some (a.time, .error (.stream t))
        | .line text =>
          match Status.parse? text with
          | some s => some (a.time, if s.isOk then .ok records else .error (.refusal s.id s.message))
          | none => a.next.decision lines a.time (records ++ Link.recordsIn text) := by
  rw [Outlook.decision]
  split
  · next h => simp only [h]
  · next h =>
    simp only [h]
    split <;> next ht => simp only [ht]

/-- A line that is no status line decides nothing. -/
theorem decision_line {a : Arrival} {text : String} (ha : o.arrival (writtenSoFar lines) now = some a)
    (htext : a.heard = .line text) (hnone : Status.parse? text = none) :
    o.decision lines now records =
      a.next.decision lines a.time (records ++ Link.recordsIn text) := by
  rw [decision_eq, ha]
  simp only [htext, hnone]

theorem decision_status {a : Arrival} {text : String} {s : Status}
    (ha : o.arrival (writtenSoFar lines) now = some a) (htext : a.heard = .line text)
    (hsome : Status.parse? text = some s) :
    o.decision lines now records =
      some (a.time, if s.isOk then .ok records else .error (.refusal s.id s.message)) := by
  rw [decision_eq, ha]
  simp only [htext, hsome]

/-- A reply is not decided before what comes next. -/
theorem decision_later {a : Arrival} {time : Nat} {result : Except Fault (List Record)}
    (ha : o.arrival (writtenSoFar lines) now = some a)
    (h : o.decision lines now records = some (time, result)) : a.time ≤ time := by
  induction hn : o.weight using Nat.strongRecOn generalizing o now records a with
  | ind n ih =>
    subst hn
    rw [decision_eq, ha] at h
    cases hheard : a.heard with
    | nothing => simp only [hheard, reduceCtorEq] at h
    | ended =>
      simp only [hheard, Option.some.injEq, Prod.mk.injEq] at h
      exact Nat.le_of_eq h.1
    | failed t =>
      simp only [hheard, Option.some.injEq, Prod.mk.injEq] at h
      exact Nat.le_of_eq h.1
    | line text =>
      simp only [hheard] at h
      split at h
      · simp only [Option.some.injEq, Prod.mk.injEq] at h
        exact Nat.le_of_eq h.1
      · rcases hnext : a.next.arrival (writtenSoFar lines) a.time with _ | b
        · rw [decision_eq, hnext] at h
          cases h
        · exact Nat.le_trans (arrival_later hnext)
            (ih _ ((arrival_weight ha).2 text hheard) hnext h rfl)

theorem foresees_so_far (lines : Nat) (deadline : Deadline) (now : Nat) :
    Foresees (writtenSoFar lines) lines deadline now where
  past n hn := ⟨0, Nat.zero_le now, if_pos hn⟩
  later n hn t ht := by
    rw [writtenSoFar, if_neg (Nat.not_le.2 hn)] at ht
    cases ht

theorem inTime_of_le {α : Type} {limit time : Nat} (h : time ≤ limit) (result : α) :
    inTime limit (some (time, result)) = (some result, time) :=
  if_pos h

theorem inTime_le {α : Type} (limit : Nat) (d : Option (Nat × α)) : (inTime limit d).2 ≤ limit := by
  rcases d with _ | ⟨time, result⟩
  · exact Nat.le_refl limit
  · rw [inTime]
    split
    · assumption
    · exact Nat.le_refl limit

/-- A result that comes too late is none. -/
theorem inTime_of_lt {α : Type} {limit : Nat} {d : Option (Nat × α)} (h : ∀ x ∈ d, limit < x.1) :
    inTime limit d = (none, limit) := by
  rcases d with _ | ⟨time, result⟩
  · rfl
  · exact if_neg (Nat.not_le.2 (h _ rfl))

end Decisions

namespace Link

variable {l : Link} {limit now : Nat}

/-- A read during a reply gives what comes next, if it comes no later than the deadline. -/
theorem hear_in_time (h : l.Live) (hle : now ≤ limit) :
    (∃ a l', l.hear (some limit) now = (a.heard, a.time, l') ∧
      l.outlook.arrival (writtenSoFar l.lines) now = some a ∧ a.time ≤ limit ∧
      l'.outlook = a.next ∧ l'.lines = l.lines ∧ ((∀ t, a.heard ≠ .failed t) → l'.Live)) ∨
    ∃ l', l.hear (some limit) now = (.nothing, limit, l') ∧
      ∀ a ∈ l.outlook.arrival (writtenSoFar l.lines) now, limit < a.time := by
  have hmeets := hear_meets h (Deadline.before_of_le hle) (foresees_so_far l.lines (some limit) now)
  have hlive := hear_live (some limit) now h
  rw [hear_eq]
  generalize l.listened (some limit) now = out at hmeets hlive
  generalize hnext : l.outlook.arrival (writtenSoFar l.lines) now = next at hmeets
  cases hmeets with
  | @arrives a _ hheard htime houtlook hopen =>
    simp only [Deadline.before, decide_eq_false_iff_not, Nat.not_lt] at hopen
    exact Or.inl ⟨a, l.after out, by rw [hheard, htime], rfl, hopen, houtlook, rfl, hheard ▸ hlive⟩
  | waits hheard htime _ hlate =>
    refine Or.inr ⟨l.after out, by rw [hheard, htime limit rfl], fun a ha => ?_⟩
    rcases hlate a ha with hlate | ⟨n, hn, t, -, hwritten⟩
    · simpa only [Deadline.before, decide_eq_true_eq] using hlate
    · -- No line is written while a reply is read.
      rw [writtenSoFar, if_neg (Nat.not_le.2 hn)] at hwritten
      cases hwritten

/-- **A reply ends as decided**, or without a result at its deadline. -/
theorem reply_decided (h : l.Live) (hle : now ≤ limit) (records : List Record) :
    ((l.reply (some limit) now records).result, (l.reply (some limit) now records).now) =
      inTime limit (l.outlook.decision l.lines now records) := by
  induction hn : l.outlook.weight using Nat.strongRecOn generalizing l now records with
  | ind n ih =>
    subst hn
    rw [reply_eq]
    rcases hear_in_time h hle with ⟨a, l', hhear, hnext, htime, houtlook, hlines, hlive⟩ | ⟨l', hhear, hlate⟩
    · rw [hhear, decision_eq, hnext]
      simp only
      cases hheard : a.heard with
      | nothing => exact absurd hheard (arrival_heard hnext)
      | ended => exact (inTime_of_le htime _).symm
      | failed t => exact (inTime_of_le htime _).symm
      | line text =>
        simp only
        cases hstatus : Status.parse? text with
        | some s =>
          simp only
          rw [inTime_of_le htime]
          split <;> rfl
        | none =>
          have hweight : l'.outlook.weight < l.outlook.weight := by
            rw [houtlook]
            exact (arrival_weight hnext).2 text hheard
          have hrest := ih _ hweight (hlive (by simp [hheard])) htime (records ++ recordsIn text) rfl
          rwa [houtlook, hlines] at hrest
    · rw [hhear, inTime_of_lt]
      rintro ⟨time, result⟩ hdecided
      rcases hnext : l.outlook.arrival (writtenSoFar l.lines) now with _ | a
      · rw [decision_eq, hnext] at hdecided
        cases hdecided
      · exact Nat.lt_of_lt_of_le (hlate a hnext) (decision_later hnext hdecided)

/-- What a command returns that is written: what its reply returns in time, or else a fault. -/
theorem command_in_time (hl : l.Untroubled) {start : Nat} {text : String}
    (hwritten : (l.send start text).1 = none) (timeLimit : Nat) :
    let asked := (l.send start text).2
    let decided := inTime (start + timeLimit) (asked.outlook.decision asked.lines start [])
    let turn := l.command timeLimit none start text
    turn.result = some (decided.1.getD
        (.error (.timeLimit ("Antwort auf '" ++ commandName text ++ "'")))) ∧ turn.now = decided.2 := by
  intro asked decided turn
  have hreply : ((asked.reply (some (start + timeLimit)) start []).result,
      (asked.reply (some (start + timeLimit)) start []).now) = decided :=
    reply_decided (Untroubled.sent start text hl).live (Nat.le_add_right start timeLimit) []
  rw [← hreply]
  simp only [turn, asked, command]
  generalize l.send start text = sent at hwritten
  obtain ⟨t?, l'⟩ := sent
  obtain rfl : t? = none := hwritten
  simp only [Deadline.earlier, Deadline.before, Bool.false_eq_true, if_false]
  split
  · next hsome => exact ⟨by rw [hsome]; rfl, rfl⟩
  · next hnone => exact ⟨by rw [hnone]; rfl, rfl⟩

/-- **The deadline of a command.** On a connection on which no read has failed, a command that is written
returns no later than its time limit allows. It is decided by the first status line, the end of the stream
or a trouble, if that comes no later than the deadline, and returns at that moment. Otherwise it fails
for its time limit exactly at the deadline. -/
theorem command_decided (hl : l.Untroubled) {start : Nat} {text : String}
    (hwritten : (l.send start text).1 = none) (timeLimit : Nat) :
    let asked := (l.send start text).2
    let decided := asked.outlook.decision asked.lines start []
    let turn := l.command timeLimit none start text
    turn.result ≠ none ∧ turn.now ≤ start + timeLimit ∧
      (∀ time result, decided = some (time, result) → time ≤ start + timeLimit →
        turn.result = some result ∧ turn.now = time) ∧
      ((∀ time result, decided = some (time, result) → start + timeLimit < time) →
        turn.result = some (.error (.timeLimit ("Antwort auf '" ++ commandName text ++ "'"))) ∧
          turn.now = start + timeLimit) := by
  intro asked decided turn
  obtain ⟨hresult, hnow⟩ : turn.result = some ((inTime (start + timeLimit) decided).1.getD
      (.error (.timeLimit ("Antwort auf '" ++ commandName text ++ "'")))) ∧
      turn.now = (inTime (start + timeLimit) decided).2 := command_in_time hl hwritten timeLimit
  refine ⟨by simp [hresult], ?_, fun time result hsome hle => ?_, fun hlate => ?_⟩
  · rw [hnow]
    exact inTime_le _ decided
  · rw [hsome, inTime_of_le hle] at hresult hnow
    exact ⟨hresult, hnow⟩
  · rw [inTime_of_lt fun x hx => hlate x.1 x.2 hx] at hresult hnow
    exact ⟨hresult, hnow⟩

/-- A notice, a data line and parts of lines come before the status line. It is completed at the very moment
of the deadline of the first command, and one millisecond after that of the second one. -/
theorem command_decided_at_the_last_moment :
    let said := "notifytextmessage msg=a\n\rclid=1\n\rerror id=0 msg=ok\n\r".toList
    let octets := Utf8.encode said
    let peer : Peer := ⟨[.awaitLines 1, .data (octets.take 9), .silence 20, .data ((octets.drop 9).take 30),
      .silence 30, .data (octets.drop 39)], none⟩
    let l := Link.ofPeer peer
    l.Untroubled ∧ (l.send 5 "clientlist -uid").1 = none ∧
      (l.command 50 none 5 "clientlist -uid").result = some (.ok [⟨[("clid", "1")]⟩]) ∧
      (l.command 50 none 5 "clientlist -uid").now = 55 ∧
      (l.command 49 none 5 "clientlist -uid").result =
        some (.error (.timeLimit "Antwort auf 'clientlist'")) ∧
      (l.command 49 none 5 "clientlist -uid").now = 54 := by
  intro said octets peer l
  have hl : l.Untroubled := .opened peer false
  have hwritten : (l.send 5 "clientlist -uid").1 = none := by decide +kernel
  have hdecided : (l.send 5 "clientlist -uid").2.outlook.decision
      (l.send 5 "clientlist -uid").2.lines 5 [] = some (55, .ok [⟨[("clid", "1")]⟩]) := by
    let left (n k : Nat) : Outlook := ⟨Line.defaultLimit, (octets.drop n).take k,
      [.silence 30, .data (octets.drop 39)], false⟩
    have hnotice : (l.send 5 "clientlist -uid").2.outlook.arrival (writtenSoFar 1) 5 =
        some ⟨.line "notifytextmessage msg=a", 25, left 25 14⟩ := by decide +kernel
    have hdata : (left 25 14).arrival (writtenSoFar 1) 25 = some ⟨.line "clid=1", 25, left 33 6⟩ := by
      decide +kernel
    have hstatus : (left 33 6).arrival (writtenSoFar 1) 25 =
        some ⟨.line "error id=0 msg=ok", 55, ⟨Line.defaultLimit, [], [], false⟩⟩ := by decide +kernel
    rw [show (l.send 5 "clientlist -uid").2.lines = 1 by decide +kernel,
      decision_line hnotice rfl (by decide +kernel), decision_line hdata rfl (by decide +kernel),
      decision_status (s := ⟨0, "ok"⟩) hstatus rfl (by decide +kernel)]
    decide +kernel
  obtain ⟨-, -, hfirst, -⟩ := command_decided hl hwritten 50
  obtain ⟨-, -, -, hsecond⟩ := command_decided hl hwritten 49
  have hfirst := hfirst 55 _ hdecided (by decide)
  have hsecond := hsecond fun time result h => by
    rw [hdecided] at h
    cases h
    decide
  exact ⟨hl, hwritten, hfirst.1, hfirst.2, hsecond.1.trans (by decide +kernel), hsecond.2⟩

/-- What comes at the moment of the deadline still counts, so a command with nothing to decide it before its
deadline need not fail for its time limit. -/
theorem not_failed_unless_decided_before : ¬ ∀ (l : Link) (start timeLimit : Nat) (text : String),
    l.Untroubled → 0 < timeLimit → (l.send start text).1 = none →
    (∀ time result, (l.send start text).2.outlook.decision (l.send start text).2.lines start [] =
      some (time, result) → start + timeLimit ≤ time) →
    (l.command timeLimit none start text).result =
      some (.error (.timeLimit ("Antwort auf '" ++ commandName text ++ "'"))) := by
  intro hclaim
  let octets := Utf8.encode "error id=0 msg=ok\n\r".toList
  let peer : Peer := ⟨[.silence 10000, .data octets], none⟩
  let l := Link.ofPeer peer
  have hstatus : (l.send 0 "whoami").2.outlook.arrival (writtenSoFar 1) 0 =
      some ⟨.line "error id=0 msg=ok", 10000, ⟨Line.defaultLimit, [], [], false⟩⟩ := by decide +kernel
  have hdecided : (l.send 0 "whoami").2.outlook.decision (l.send 0 "whoami").2.lines 0 [] =
      some (10000, .ok []) := by
    rw [show (l.send 0 "whoami").2.lines = 1 by decide +kernel,
      decision_status (s := ⟨0, "ok"⟩) hstatus rfl (by decide +kernel)]
    decide +kernel
  have hl : l.Untroubled := .opened peer false
  have hwritten : (l.send 0 "whoami").1 = none := by decide +kernel
  have hfails := hclaim l 0 10000 "whoami" hl (by decide) hwritten
    fun time result h => by
      rw [hdecided] at h
      cases h
      exact Nat.le_refl 10000
  have hreturns := (command_in_time hl hwritten 10000).1
  rw [hdecided, inTime_of_le (by decide), hfails] at hreturns
  cases hreturns

end Link

end VoiceRelay
