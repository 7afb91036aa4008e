import VoiceRelay.Proofs.Clock
import VoiceRelay.Proofs.RefusedWrite
import VoiceRelay.Proofs.TimelyReading

/-!
# When keepalives are written

While nothing comes, a session of the event stream writes an empty line at the end of each interval. The
timer starts anew with each line that is read, whatever is done with it, and with each empty line that is
written, but not with a part of a line. So the empty lines after a line are due at multiples of the interval
counted from this line, up to the next one.

**Design.** `Paced` says what a stream logs from a moment on, one stretch between two lines after the other.
It is stated with what comes next (`Outlook.arrival`) and knows nothing of reads that give up. What the other
side does may depend on the keepalives, so what comes next is looked up for a stream that is never silent for
longer than the interval.

**Results.**

- `streamWith_paced`: streaming is paced.
- `keepalives_on_schedule`: so is every session, and one with a refused write is cut off at this write.
-/

namespace VoiceRelay

namespace EventStream

section Defs

/-- The first keepalives after a moment. -/
def beats (beat start count : Nat) : List Entry :=
  (List.range count).map fun n => .sent (start + (n + 1) * beat) [Line.lf]

/-- When lines are written, if some have been written at a moment and after it only keepalives are. -/
def beating (beat lines start n : Nat) : Option Nat := some (start + (n - lines) * beat)

/-- What is logged of what comes next. -/
def noted (a : Arrival) : List Entry :=
  match a.heard with
  | .line text => [.heard a.time text]
  | _ => []

/-- How a stream ends with what comes next, if it does. -/
def ending (a : Arrival) : Option (Except Fault Unit) :=
  match a.heard with
  | .line text => if (Notice.text? text).isSome ∧ a.next.shut then some (.ok ()) else none
  | .ended => some (.error .closed)
  | .failed t => some (.error (.stream t))
  | .nothing => none

/-- A stretch from a moment to what comes next, with some keepalives: all that are due before it and no
others, but for one that is due at the same instant. -/
structure Stretch (beat lines start : Nat) (o : Outlook) (count : Nat) (a : Arrival) : Prop where
  arrives : o.arrival (beating beat lines start) start = some a
  every : ∀ n, start + (n + 1) * beat < a.time → n < count
  only : ∀ n < count, start + (n + 1) * beat ≤ a.time

/-- What a stream logs from a moment on, when some lines have been written, and when and how it ends. -/
inductive Paced (beat stopAt : Nat) : (lines start : Nat) → Outlook → List Entry → Nat →
    Option (Except Fault Unit) → Prop
  | stopped {lines start count : Nat} {o : Outlook} :
      (∀ a ∈ o.arrival (beating beat lines start) start, stopAt < a.time) →
      (∀ n, n < count ↔ start + (n + 1) * beat ≤ stopAt) →
      Paced beat stopAt lines start o (beats beat start count) stopAt none
  | over {lines start count : Nat} {o : Outlook} {a : Arrival} {result : Except Fault Unit} :
      Stretch beat lines start o count a → a.time ≤ stopAt → ending a = some result →
      Paced beat stopAt lines start o (beats beat start count ++ noted a) a.time (some result)
  | onward {lines start count time : Nat} {o : Outlook} {a : Arrival} {rest : List Entry}
      {result : Option (Except Fault Unit)} :
      Stretch beat lines start o count a → a.time ≤ stopAt → ending a = none →
      Paced beat stopAt (lines + count) a.time a.next rest time result →
      Paced beat stopAt lines start o (beats beat start count ++ noted a ++ rest) time result

/-- When and on which connection a session starts to stream, if its handshake is completed. -/
def streamingFrom (s : StreamSettings) (stopAt now : Nat) (l : Link) : Option (Nat × Link) :=
  let greeted := (l.publish .handshaking).greet (some stopAt) now
  match greeted.result with
  | some (.ok ()) =>
    let known := register stopAt greeted.now greeted.link (handshake s.credentials)
    match known.result with
    | some (.ok ()) => some (known.now, (known.link.publish .registered).publish .streaming)
    | _ => none
  | _ => none

/-- A connection that accepts all writes and on which no read has failed, at a moment before the end. -/
structure InOrder (stopAt now : Nat) (l : Link) : Prop where
  live : l.Live
  accepts : l.accepted = none
  early : now ≤ stopAt

end Defs

section Beats

variable {beat lines start count : Nat}

theorem beats_succ (beat start count : Nat) :
    beats beat start (count + 1) = beats beat start count ++ [.sent (start + (count + 1) * beat) [Line.lf]] := by
  rw [beats, beats, List.range_succ, List.map_append]
  rfl

theorem beat_le {n : Nat} (hn : n < count) : start + (n + 1) * beat ≤ start + count * beat :=
  Nat.add_le_add_left (Nat.mul_le_mul_right beat hn) start

theorem lt_of_beat_lt {n : Nat} (h : start + (n + 1) * beat < start + (count + 1) * beat) : n < count := by
  have hlt : (n + 1) * beat < (count + 1) * beat := by omega
  exact Nat.lt_of_succ_lt_succ (Nat.lt_of_mul_lt_mul_right hlt)

/-- Keepalives are written up to a time exactly if they are due by then. -/
theorem lt_count_iff {limit : Nat} (hpast : start + count * beat ≤ limit)
    (hcoming : limit < start + (count + 1) * beat) (n : Nat) :
    n < count ↔ start + (n + 1) * beat ≤ limit :=
  ⟨fun hn => (beat_le hn).trans hpast, fun hle => lt_of_beat_lt (hle.trans_lt hcoming)⟩

theorem Stretch.of_bounds {o : Outlook} {a : Arrival}
    (harrives : o.arrival (beating beat lines start) start = some a)
    (hpast : start + count * beat ≤ a.time) (hcoming : a.time ≤ start + (count + 1) * beat) :
    Stretch beat lines start o count a where
  arrives := harrives
  every _ hn := lt_of_beat_lt (hn.trans_le hcoming)
  only _ hn := (beat_le hn).trans hpast

end Beats

section Streaming

variable {beat stopAt lines start count now now' : Nat} {o : Outlook} {l l' : Link} {heard : Heard}

/-- The keepalives written so far are those that were due. -/
theorem foresees_beats (lines : Nat) (hnow : now = start + count * beat) (stopAt : Nat) :
    Foresees (beating beat lines start) (lines + count) (some (min (now + beat) stopAt)) now where
  past n hn := by
    refine ⟨_, ?_, rfl⟩
    rw [hnow]
    exact Nat.add_le_add_left (Nat.mul_le_mul_right beat (by omega)) start
  later n hn t ht := by
    refine ⟨_, rfl, ?_⟩
    obtain rfl : start + (n - lines) * beat = t := Option.some.inj ht
    have hle : (count + 1) * beat ≤ (n - lines) * beat := Nat.mul_le_mul_right beat (by omega)
    rw [Nat.succ_mul] at hle
    omega

/-- A read that gives something ends the stretch. -/
theorem hear_something (hbeat : 0 < beat) (hlive : l.Live) (hle : now ≤ stopAt)
    (hnow : now = start + count * beat) (hlines : l.lines = lines + count)
    (hnext : o.arrival (beating beat lines start) start = l.outlook.arrival (beating beat lines start) now)
    (hhear : l.hear (some (min (now + max 1 beat) stopAt)) now = (heard, now', l')) (hne : heard ≠ .nothing) :
    ∃ a, Stretch beat lines start o count a ∧ a.time ≤ stopAt ∧ a.heard = heard ∧ a.time = now' ∧
      l'.outlook = a.next ∧ l'.log = (noted a).reverse ++ l.log ∧ l'.accepted = l.accepted ∧
      l'.lines = l.lines ∧ ((∀ t, heard ≠ .failed t) → l'.Live) := by
  rw [Nat.max_eq_right hbeat] at hhear
  have hmeets := Link.hear_meets hlive (Deadline.before_of_le (by omega)) (hlines ▸ foresees_beats lines hnow stopAt)
  have hlive' := Link.hear_live (some (min (now + beat) stopAt)) now hlive
  rw [Link.hear_eq] at hhear
  generalize l.listened (some (min (now + beat) stopAt)) now = out at hhear hmeets hlive'
  cases hhear
  generalize hpending : l.outlook.arrival (beating beat lines start) now = next at hmeets
  cases hmeets with
  | @arrives a _ hheard htime houtlook hopen =>
    simp only [Deadline.before, decide_eq_false_iff_not, Nat.not_lt] at hopen
    have hlater : now ≤ a.time := arrival_later hpending
    have hcount : (count + 1) * beat = count * beat + beat := Nat.succ_mul count beat
    refine ⟨a, .of_bounds (hnext.trans hpending) (by omega) (by omega), by omega, hheard.symm, htime.symm,
      houtlook, ?_, rfl, rfl, hlive'⟩
    simp only [Link.after, Listened.noted, noted, hheard, htime]
    cases a.heard <;> rfl
  | waits hheard => exact absurd hheard hne

/-- A read that gives nothing leaves what comes next, and that comes no earlier than the next keepalive. -/
theorem hear_nothing (hbeat : 0 < beat) (hlive : l.Live) (hle : now ≤ stopAt)
    (hnow : now = start + count * beat) (hlines : l.lines = lines + count)
    (hhear : l.hear (some (min (now + max 1 beat) stopAt)) now = (.nothing, now', l')) :
    now' = min (now + beat) stopAt ∧ l'.Live ∧ l'.log = l.log ∧ l'.accepted = l.accepted ∧
      l'.lines = l.lines ∧ l'.outlook.arrival (beating beat lines start) now' =
        l.outlook.arrival (beating beat lines start) now ∧
      (stopAt < now + beat →
        ∀ a ∈ l.outlook.arrival (beating beat lines start) now, stopAt < a.time) := by
  rw [Nat.max_eq_right hbeat] at hhear
  have hforesees := foresees_beats lines hnow stopAt
  have hmeets := Link.hear_meets hlive (Deadline.before_of_le (by omega)) (hlines ▸ hforesees)
  have hlive' := Link.hear_live (some (min (now + beat) stopAt)) now hlive
  rw [Link.hear_eq] at hhear
  generalize l.listened (some (min (now + beat) stopAt)) now = out at hhear hmeets hlive'
  generalize hpending : l.outlook.arrival (beating beat lines start) now = next at hmeets
  have hheard : out.heard = .nothing := congrArg Prod.fst hhear
  have hquiet : out.noted = [] := by rw [Listened.noted, hheard]
  obtain ⟨rfl, rfl⟩ : out.now = now' ∧ l.after out = l' := by simpa using congrArg Prod.snd hhear
  cases hmeets with
  | @arrives a _ hheard' => exact absurd (hheard'.symm.trans hheard) (arrival_heard hpending)
  | waits _ htime hsame hlate =>
    have htime := htime _ rfl
    refine ⟨htime, hlive' fun t => by simp [hheard], by simp [Link.after, hquiet], rfl, rfl, hsame,
      fun hstop a ha => ?_⟩
    rcases hlate a ha with hlate | ⟨n, hn, t, ht, hwritten⟩
    · simp only [Deadline.before, decide_eq_true_eq] at hlate
      omega
    · -- The other side waits for a keepalive that is not due before the end.
      obtain rfl : start + (n - lines) * beat = t := Option.some.inj hwritten
      have hle : (count + 1) * beat ≤ (n - lines) * beat := Nat.mul_le_mul_right beat (by omega)
      rw [Nat.succ_mul] at hle
      omega

/-- An empty line is written as a line feed. -/
theorem send_empty (haccepts : l.accepted = none) (now : Nat) :
    l.send now "" = (none, Link.note { l with writes := l.writes + 1 } (.sent now [Line.lf])) := by
  have hrefuses : l.refuses = false := by rw [Link.refuses, haccepts]
  have hframe : Line.frame "" = some [Line.lf] := by decide
  simp [Link.send, hframe, hrefuses]

/-- A stretch that ends in a line, and the rest of the stream. -/
theorem paced_onward {a : Arrival} {log : List Entry} {time : Nat} {result : Option (Except Fault Unit)}
    (hstretch : Stretch beat lines start o count a) (htime : a.time ≤ stopAt) (hending : ending a = none)
    (hlog : l'.log = (noted a).reverse ++ l.log)
    (hrest : ∃ entries, log = entries.reverse ++ l'.log ∧
      Paced beat stopAt (lines + count) a.time a.next (beats beat a.time 0 ++ entries) time result) :
    ∃ entries, log = entries.reverse ++ l.log ∧
      Paced beat stopAt lines start o (beats beat start count ++ entries) time result := by
  obtain ⟨entries, rfl, hpaced⟩ := hrest
  refine ⟨noted a ++ entries, ?_, ?_⟩
  · rw [hlog, List.reverse_append, List.append_assoc]
  · rw [← List.append_assoc]
    exact .onward hstretch htime hending hpaced

/-- **Streaming is paced.** -/
theorem streamWith_paced {σ : Type} (take : σ → Bool → String → σ) (hbeat : 0 < beat) (now : Nat) (x : σ)
    (l : Link) : l.Live → l.accepted = none → now ≤ stopAt → ∀ (start lines count : Nat) (o : Outlook),
      now = start + count * beat → l.lines = lines + count →
      o.arrival (beating beat lines start) start = l.outlook.arrival (beating beat lines start) now →
      ∃ entries, (streamWith take beat stopAt now x l).link.log = entries.reverse ++ l.log ∧
        Paced beat stopAt lines start o (beats beat start count ++ entries)
          (streamWith take beat stopAt now x l).now (streamWith take beat stopAt now x l).result := by
  fun_induction streamWith take beat stopAt now x l with
  | case1 now x l due now' l' hhear hstop =>
    intro hlive haccepts hle start lines count o hnow hlines hnext
    have hdue : due = now + beat := congrArg (now + ·) (Nat.max_eq_right hbeat)
    have hcount : (count + 1) * beat = count * beat + beat := Nat.succ_mul count beat
    obtain ⟨-, -, hlog, -, -, -, hlate⟩ := hear_nothing hbeat hlive hle hnow hlines hhear
    refine ⟨[], hlog, ?_⟩
    rw [List.append_nil]
    exact .stopped (hnext ▸ hlate (hdue ▸ hstop)) (lt_count_iff (by omega) (by omega))
  | case2 now x l due now' l' hhear hrun t l'' hsent =>
    intro hlive haccepts hle start lines count o hnow hlines hnext
    obtain ⟨-, -, -, haccepts', -⟩ := hear_nothing hbeat hlive hle hnow hlines hhear
    cases (send_empty (haccepts'.trans haccepts) due).symm.trans hsent
  | case3 now x l due now' l' hhear hrun l'' hsent ih =>
    intro hlive haccepts hle start lines count o hnow hlines hnext
    have hdue : due = now + beat := congrArg (now + ·) (Nat.max_eq_right hbeat)
    have hcount : (count + 1) * beat = count * beat + beat := Nat.succ_mul count beat
    obtain ⟨htime, hlive', hlog, haccepts', hlines', hsame, -⟩ :=
      hear_nothing hbeat hlive hle hnow hlines hhear
    have hnow' : now' = due := by omega
    have haccepts' := haccepts'.trans haccepts
    cases (send_empty haccepts' due).symm.trans hsent
    have hlines'' : Link.lines (Link.note { l' with writes := l'.writes + 1 } (.sent due [Line.lf])) =
        lines + (count + 1) := by
      rw [hlines] at hlines'
      simp only [Link.lines, Link.note, haccepts'] at hlines' ⊢
      omega
    obtain ⟨entries, hrest, hpaced⟩ := ih hlive' haccepts' (Nat.not_lt.1 hrun) start lines (count + 1) o
      (by omega) hlines'' (hnow' ▸ (hnext.trans hsame.symm))
    refine ⟨.sent due [Line.lf] :: entries, ?_, ?_⟩
    · rw [hrest]
      simp [Link.note, hlog]
    · have hthis : start + (count + 1) * beat = due := by omega
      rwa [beats_succ, hthis, List.append_assoc] at hpaced
  | case4 now x l due now' l' hhear =>
    intro hlive haccepts hle start lines count o hnow hlines hnext
    obtain ⟨a, hstretch, htime, hheard, rfl, -, hlog, -⟩ :=
      hear_something hbeat hlive hle hnow hlines hnext hhear (by simp)
    exact ⟨noted a, hlog, .over hstretch htime (by simp only [ending, hheard])⟩
  | case5 now x l due t now' l' hhear =>
    intro hlive haccepts hle start lines count o hnow hlines hnext
    obtain ⟨a, hstretch, htime, hheard, rfl, -, hlog, -⟩ :=
      hear_something hbeat hlive hle hnow hlines hnext hhear (by simp)
    exact ⟨noted a, hlog, .over hstretch htime (by simp only [ending, hheard])⟩
  | case6 now x l due text now' l' hhear htext ih =>
    intro hlive haccepts hle start lines count o hnow hlines hnext
    obtain ⟨a, hstretch, htime, hheard, rfl, houtlook, hlog, haccepts', hlines', hlive'⟩ :=
      hear_something hbeat hlive hle hnow hlines hnext hhear (by simp)
    have hending : ending a = none := by simp [ending, hheard, htext]
    refine paced_onward hstretch htime hending hlog ?_
    exact ih (hlive' (by simp)) (haccepts'.trans haccepts) htime a.time (lines + count) 0 a.next (by omega)
      (hlines'.trans hlines) (houtlook ▸ rfl)
  | case7 now x l due text now' l' hhear message htext x' hshut =>
    intro hlive haccepts hle start lines count o hnow hlines hnext
    obtain ⟨a, hstretch, htime, hheard, rfl, houtlook, hlog, -⟩ :=
      hear_something hbeat hlive hle hnow hlines hnext hhear (by simp)
    have hshut' : a.next.shut = true := houtlook ▸ hshut
    exact ⟨noted a, hlog, .over hstretch htime (by simp [ending, hheard, htext, hshut'])⟩
  | case8 now x l due text now' l' hhear message htext x' hshut ih =>
    intro hlive haccepts hle start lines count o hnow hlines hnext
    obtain ⟨a, hstretch, htime, hheard, rfl, houtlook, hlog, haccepts', hlines', hlive'⟩ :=
      hear_something hbeat hlive hle hnow hlines hnext hhear (by simp)
    have hshut' : a.next.shut = false := houtlook ▸ Bool.eq_false_iff.2 hshut
    have hending : ending a = none := by simp [ending, hheard, hshut']
    refine paced_onward hstretch htime hending hlog ?_
    exact ih (hlive' (by simp)) (haccepts'.trans haccepts) htime a.time (lines + count) 0 a.next (by omega)
      (hlines'.trans hlines) (houtlook ▸ rfl)

end Streaming

section Handshake

variable {stopAt now time : Nat} {l m : Link}

theorem InOrder.publish (h : InOrder stopAt now l) (s : StreamState) : InOrder stopAt now (l.publish s) :=
  ⟨h.live, h.accepts, h.early⟩

theorem InOrder.send (h : InOrder stopAt now l) (text : String) : InOrder stopAt now (l.send now text).2 := by
  refine ⟨?_, ?_, h.early⟩
  · rw [Link.Live, (send_reader l now text).1, (send_reader l now text).2]
    exact h.live
  · unfold Link.send
    split
    · exact h.accepts
    · simp only
      split <;> exact h.accepts

theorem InOrder.hear (h : InOrder stopAt now l) {text : String}
    (hhear : l.hear (some stopAt) now = (.line text, time, m)) : InOrder stopAt time m := by
  have hlater := (l.hear_later (Deadline.before_of_le h.early)).pending
  have hlive := Link.hear_live (some stopAt) now h.live
  rw [Link.hear_eq] at hhear hlater
  simp only [Prod.mk.injEq] at hhear
  obtain ⟨hheard, rfl, rfl⟩ := hhear
  refine ⟨hlive fun t => by simp [hheard], h.accepts, ?_⟩
  simpa only [Deadline.before, decide_eq_false_iff_not, Nat.not_lt] using hlater

theorem InOrder.greet (h : InOrder stopAt now l)
    (hgreet : l.greet (some stopAt) now = ⟨some (.ok ()), time, m⟩) : InOrder stopAt time m := by
  unfold Link.greet at hgreet
  rcases hfirst : l.hear (some stopAt) now with ⟨heard, time₁, m₁⟩
  rw [hfirst] at hgreet
  cases heard with
  | nothing | ended | failed t => cases hgreet
  | line first =>
    simp only at hgreet
    split at hgreet
    · rcases hsecond : m₁.hear (some stopAt) time₁ with ⟨heard, time₂, m₂⟩
      rw [hsecond] at hgreet
      cases heard with
      | nothing | ended | failed t => cases hgreet
      | line greeting =>
        cases hgreet
        exact (h.hear hfirst).hear hsecond
    · cases hgreet

theorem InOrder.acknowledged (h : InOrder stopAt now l) {text : String} {answer : Option Status}
    (hack : l.acknowledged (some stopAt) now text = ⟨some (.ok answer), time, m⟩) :
    InOrder stopAt time m := by
  have hsent := h.send text
  unfold Link.acknowledged at hack
  rcases hsend : l.send now text with ⟨t, m₁⟩
  rw [hsend] at hack hsent
  cases t with
  | some t => cases hack
  | none =>
    simp only at hack
    rcases hhear : m₁.hear (some stopAt) now with ⟨heard, time₁, m₂⟩
    rw [hhear] at hack
    cases heard with
    | nothing | ended | failed t => cases hack
    | line line =>
      cases hack
      exact hsent.hear hhear

theorem InOrder.register {texts : List String} (h : InOrder stopAt now l)
    (hregister : register stopAt now l texts = ⟨some (.ok ()), time, m⟩) : InOrder stopAt time m := by
  induction texts generalizing l now with
  | nil =>
    cases hregister
    exact h
  | cons text texts ih =>
    unfold EventStream.register at hregister
    rcases hack : l.acknowledged (some stopAt) now text with ⟨result, time₁, m₁⟩
    rw [hack] at hregister
    rcases result with _ | f | answer
    · cases hregister
    · cases hregister
    · exact ih (h.acknowledged hack) hregister

/-- **A session streams once its handshake is completed**, and until then everything was in order. -/
theorem sessionWith_streaming {σ : Type} (take : σ → Bool → String → σ) {s : StreamSettings} (x : σ)
    (h : InOrder stopAt now l) (hstart : streamingFrom s stopAt now l = some (time, m)) :
    InOrder stopAt time m ∧
      sessionWith take s stopAt now x l = streamWith take s.keepalive stopAt time x m := by
  unfold streamingFrom at hstart
  unfold sessionWith
  rcases hgreet : (l.publish .handshaking).greet (some stopAt) now with ⟨result, time₁, m₁⟩
  rw [hgreet] at hstart
  rcases result with _ | f | ⟨⟩
  · cases hstart
  · cases hstart
  · have hgreeted := (h.publish .handshaking).greet hgreet
    simp only [registeredWith] at hstart ⊢
    rcases hregister : register stopAt time₁ m₁ (handshake s.credentials) with ⟨result, time₂, m₂⟩
    rw [hregister] at hstart
    rcases result with _ | f | ⟨⟩
    · cases hstart
    · cases hstart
    · cases hstart
      exact ⟨((hgreeted.register hregister).publish .registered).publish .streaming, rfl⟩

end Handshake

section Law

/-- **Keepalives are written on schedule.** Once a session streams on a connection that accepts all writes,
it writes an empty line at the end of each interval that passes from the beginning or from a line that was
read to the next line, the end of the stream or a trouble, and nothing else. On a connection that accepts
only some writes the session is the same if it makes no more. Otherwise it ends at the moment of the first
write that is refused, with a fault that ends the attempt. -/
theorem keepalives_on_schedule {σ : Type} (take : σ → Bool → String → σ) (s : StreamSettings)
    (hbeat : 0 < s.keepalive) {start stopAt : Nat} (hstart : start ≤ stopAt) (x : σ) (script : List Step)
    (shut : Bool) :
    let fresh (accepted : Option Nat) := { Link.ofPeer ⟨script, accepted⟩ with inboxShut := shut }
    let session (accepted : Option Nat) := sessionWith take s stopAt start x (fresh accepted)
    let whole := session none
    (∀ time l, streamingFrom s stopAt start (fresh none) = some (time, l) →
      ∃ entries, whole.link.log = entries.reverse ++ l.log ∧
        Paced s.keepalive stopAt l.lines time l.outlook entries whole.now whole.result) ∧
    ∀ k,
      ((sentIn whole.link.log).length ≤ k →
        (session (some k)).result = whole.result ∧ (session (some k)).now = whole.now ∧
          (session (some k)).link.log = whole.link.log) ∧
      (k < (sentIn whole.link.log).length →
        (session (some k)).result = some (.error (.stream .brokenPipe)) ∧
          (Fault.stream .brokenPipe).scope = .attempt ∧ (session (some k)).link.writes = k + 1 ∧
          (sentIn (session (some k)).link.log).length = k ∧
          ∃ later octets, whole.link.log =
            later ++ .sent (session (some k)).now octets :: (session (some k)).link.log) := by
  intro fresh session whole
  have horder : InOrder stopAt start (fresh none) :=
    ⟨Link.Untroubled.live (.opened ⟨script, none⟩ shut), rfl, hstart⟩
  refine ⟨fun time l hstreams => ?_, fun k => ?_⟩
  · obtain ⟨hstreaming, heq⟩ := sessionWith_streaming take x horder hstreams
    have hpaced := streamWith_paced take hbeat time x l hstreaming.live hstreaming.accepts hstreaming.early
      time l.lines 0 l.outlook (by omega) rfl rfl
    rw [← heq] at hpaced
    exact hpaced
  · have hlimited : (fresh none).Limited k (fresh (some k)) := ⟨rfl, rfl, rfl, Nat.zero_le k⟩
    have hcut : whole.turn.Cut k (session (some k)).turn := session_cut take s stopAt start x hlimited
    generalize session (some k) = limited at hcut ⊢
    generalize whole = whole at hcut ⊢
    obtain ⟨result, now, l, y⟩ := whole
    obtain ⟨result', now', l', y'⟩ := limited
    simp only [SessionOf.turn] at hcut ⊢
    cases hcut with
    | same h =>
      have hle := h.count ▸ h.le
      refine ⟨fun _ => ⟨rfl, rfl, by rw [h.limit_eq]⟩, fun hlt => absurd hle (Nat.not_le.2 hlt)⟩
    | broken h =>
      obtain ⟨octets, later, hlog⟩ := h.suffix
      refine ⟨fun hle => ?_, fun _ => ⟨rfl, rfl, h.writes, h.count, later, octets, hlog.symm⟩⟩
      have hmore : k < (sentIn l.log).length := by
        rw [← hlog, ← h.count]
        simp [sentIn]
        omega
      exact absurd hle (Nat.not_le.2 hmore)

/-- A message comes in two parts, the second of them 3.5 s after the handshake, and the end 0.3 s after the
keepalive that the other side waits for. Keepalives are written after 1, 2, 3 and 4.5 s. If the sixth write
fails, the session ends after 3 s. -/
theorem keepalives_on_schedule_in_parts :
    let s : StreamSettings := ⟨⟨"bot", "secret", "voice", 10011, 1⟩, 1000, 500, 2000⟩
    let said := Utf8.encode "TS3\n\rHi\n\rok\n\rok\n\rok\n\rnotifytextmessage msg=a\n\r".toList
    let script : List Step := [.data (said.take 30), .silence 2500, .data ((said.drop 30).take 5),
      .silence 1000, .data (said.drop 35), .awaitLines 7, .silence 300, .finish]
    let session (accepted : Option Nat) :=
      sessionWith Intake.take s 9000 0 ⟨[], []⟩ { Link.ofPeer ⟨script, accepted⟩ with inboxShut := false }
    0 < s.keepalive ∧ 0 ≤ 9000 ∧
      (session none).link.log.take 7 = [.sent 4500 [Line.lf], .heard 3500 "notifytextmessage msg=a",
        .sent 3000 [Line.lf], .sent 2000 [Line.lf], .sent 1000 [Line.lf], .published .streaming,
        .published .registered] ∧
      (session none).now = 4800 ∧ (session none).result = some (.error .closed) ∧
      (session (some 5)).result = some (.error (.stream .brokenPipe)) ∧ (session (some 5)).now = 3000 := by
  intro s said script session
  have hbeat : 0 < s.keepalive := by decide
  have hstart : 0 ≤ 9000 := by decide
  obtain ⟨-, hcut⟩ := keepalives_on_schedule Intake.take s hbeat hstart ⟨[], []⟩ script false
  have hbroken := (hcut 5).2 (by decide +kernel)
  refine ⟨hbeat, hstart, ?_, ?_, ?_, hbroken.1, ?_⟩
  all_goals decide +kernel

end Law

end EventStream

end VoiceRelay
