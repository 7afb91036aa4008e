import VoiceRelay.Query.Reconnect
import VoiceRelay.Proofs.Hearing
import Mathlib.Data.List.Chain

/-!
# The states of the event stream

The health check asks whether the event stream is connected, and the answer is a state that four
functions publish. Every read and every write of the handshake may fail, the signal to stop may come
in any of them, and the loop dials again after a fault. Over all of this the published states follow
one another in a fixed order, and a state that counts as connected is never published before the
handshake on the current stream is complete.

**Design.** `Stage` tells how far an attempt has come; `Advances` tells what may happen at a stage and
which stage it leads to, and `Course` are the traces that can arise in this way. What holds of every
course is an induction over its steps. That the traces of runs are courses follows the functions of the
session, one lemma each.

**Results.**

- `Course.path`: the states published in a course.
- `Course.told`: what a course says of the current stream.
- `session_course`, `run_course`: sessions and runs are courses.
- `connected_once_registered`: the states of every run.
-/

namespace VoiceRelay

namespace EventStream

section Defs

/-- How far an attempt to keep up the stream has come. `answered n` and `asked n` count the commands of
the handshake that were acknowledged. -/
inductive Stage
  | idle
  | dialling
  | opened
  | begun
  | bannered
  | refused
  | answered (n : Nat)
  | asked (n : Nat)
  | registered
  | streaming
  | failed
  | stopped
  deriving DecidableEq

/-- The state that is published at a stage. -/
def Stage.state : Stage → StreamState
  | .idle | .stopped => .disconnected
  | .dialling | .opened | .begun | .bannered | .refused | .answered _ | .asked _ => .handshaking
  | .registered => .registered
  | .streaming => .streaming
  | .failed => .failed

/-- Whether an attempt may fail at a stage. -/
def Stage.mayFail : Stage → Bool
  | .dialling | .begun | .bannered | .refused | .answered _ | .asked _ | .streaming => true
  | _ => false

/-- What may happen at a stage, and the stage that it leads to. -/
inductive Advances (c : Credentials) : Stage → Trace → Stage → Prop
  | dial : Advances c .idle (.entry (.published .handshaking)) .dialling
  | redial : Advances c .failed (.entry (.published .handshaking)) .dialling
  | connect {t : Nat} : Advances c .dialling (.opened t) .opened
  | start : Advances c .opened (.entry (.published .handshaking)) .begun
  | banner {t : Nat} {line : String} : Text.trim line.toList = Link.banner →
      Advances c .begun (.entry (.heard t line)) .bannered
  | stranger {t : Nat} {line : String} : Text.trim line.toList ≠ Link.banner →
      Advances c .begun (.entry (.heard t line)) .refused
  | greeting {t : Nat} {line : String} : Advances c .bannered (.entry (.heard t line)) (.answered 0)
  | ask {n t : Nat} {text : String} {octets : List UInt8} : (handshake c)[n]? = some text →
      Line.frame text = some octets →
      Advances c (.answered n) (.entry (.sent t octets)) (.asked n)
  | answer {n t : Nat} {line : String} :
      Advances c (.asked n) (.entry (.heard t line)) (.answered (n + 1))
  | register : Advances c (.answered (handshake c).length) (.entry (.published .registered))
      .registered
  | stream : Advances c .registered (.entry (.published .streaming)) .streaming
  | hear {t : Nat} {line : String} : Advances c .streaming (.entry (.heard t line)) .streaming
  | beat {t : Nat} : Advances c .streaming (.entry (.sent t [Line.lf])) .streaming
  | fail {st : Stage} : st.mayFail = true → Advances c st (.entry (.published .failed)) .failed
  | stop {st : Stage} : st ≠ .stopped →
      Advances c st (.entry (.published .disconnected)) .stopped

/-- The traces that can arise, newest first, with the stage that they lead to. -/
inductive Course (c : Credentials) : List Trace → Stage → Prop
  | nil : Course c [] .idle
  | cons {past : List Trace} {st st' : Stage} {x : Trace} : Course c past st →
      Advances c st x st' → Course c (x :: past) st'

/-- The state that a trace leads to. -/
def reached (trace : List Trace) : StreamState :=
  StreamRun.state ⟨.running, 0, 0, ⟨[], []⟩, trace⟩

/-- The published states, oldest first. -/
def statesIn (trace : List Trace) : List StreamState :=
  trace.reverse.filterMap fun
    | .entry (.published st) => some st
    | _ => none

/-- What was said and published since a stream was opened last, oldest first. -/
def sinceOpened : List Trace → Option (List Entry)
  | [] => none
  | .opened _ :: _ => some []
  | .entry e :: past => (sinceOpened past).map (· ++ [e])

/-- Which state may follow which while the loop goes on. -/
inductive Follows : StreamState → StreamState → Prop
  | dial : Follows .disconnected .handshaking
  | begin : Follows .handshaking .handshaking
  | register : Follows .handshaking .registered
  | stream : Follows .registered .streaming
  | refuse : Follows .handshaking .failed
  | interrupt : Follows .streaming .failed
  | redial : Follows .failed .handshaking

/-- Commands written one after the other, each after the line that answers the one before was read,
and the line that answers the last one. -/
inductive Acknowledged : List String → List Entry → Prop
  | nil : Acknowledged [] []
  | cons {text : String} {texts : List String} {octets : List UInt8} {t t' : Nat} {line : String}
      {rest : List Entry} : Line.frame text = some octets → Acknowledged texts rest →
      Acknowledged (text :: texts) (.sent t octets :: .heard t' line :: rest)

/-- A handshake from its beginning: the banner and the greeting are read, then commands are
acknowledged. -/
inductive Shaken (texts : List String) : List Entry → Prop
  | mk {t t' : Nat} {first greeting : String} {rest : List Entry} :
      Text.trim first.toList = Link.banner → Acknowledged texts rest →
      Shaken texts (.published .handshaking :: .heard t first :: .heard t' greeting :: rest)

/-- The handshake on the current stream is complete, and no state was published since that does not
count as connected. -/
def HandshakeDone (c : Credentials) (past : List Trace) : Prop :=
  ∃ es rest, sinceOpened past = some (es ++ rest) ∧ Shaken (handshake c) es ∧
    ∀ st, .published st ∈ rest → st.isConnected = true

/-- What a trace has told at a stage. -/
def Stage.Told (c : Credentials) (past : List Trace) : Stage → Prop
  | .dialling => ∃ before, past = .entry (.published .handshaking) :: before
  | .opened => ∃ t before, past = .opened t :: .entry (.published .handshaking) :: before
  | .begun => sinceOpened past = some [.published .handshaking]
  | .bannered => ∃ t first, sinceOpened past = some [.published .handshaking, .heard t first] ∧
      Text.trim first.toList = Link.banner
  | .answered n => ∃ es, sinceOpened past = some es ∧ Shaken ((handshake c).take n) es
  | .asked n => ∃ es t text octets, sinceOpened past = some (es ++ [.sent t octets]) ∧
      Shaken ((handshake c).take n) es ∧ (handshake c)[n]? = some text ∧
      Line.frame text = some octets
  | .registered | .streaming => HandshakeDone c past
  | _ => True

/-- What a read adds to a trace. -/
def heardAt (t : Nat) : Heard → List Trace
  | .line text => [.entry (.heard t text)]
  | _ => []

/-- A trace that goes on with what is logged on a connection. -/
def onto (before : List Trace) (log : List Entry) : List Trace := log.map .entry ++ before

end Defs

section Courses

variable {c : Credentials} {past : List Trace} {st st' : Stage} {x : Trace}

/-- A course has a course behind it at every time. -/
theorem Course.earlier {later : List Trace} (h : Course c (later ++ past) st) :
    ∃ st', Course c past st' := by
  induction later generalizing st with
  | nil => exact ⟨st, h⟩
  | cons x later ih =>
    cases h with
    | cons hpast _ => exact ih hpast

/-- The state is that of the stage. -/
theorem Course.state (h : Course c past st) : reached past = st.state := by
  induction h with
  | nil => rfl
  | cons _ hstep ih =>
    cases hstep with
    | connect | banner _ | stranger _ | greeting | ask _ _ | answer | hear | beat => exact ih
    | dial | redial | start | register | stream | fail _ | stop _ => rfl

theorem Acknowledged.concat {texts : List String} {es : List Entry} (h : Acknowledged texts es)
    {text line : String} {octets : List UInt8} (hframe : Line.frame text = some octets)
    (t t' : Nat) :
    Acknowledged (texts ++ [text]) (es ++ [.sent t octets, .heard t' line]) := by
  induction h with
  | nil => exact .cons hframe .nil
  | cons hfirst _ ih => exact .cons hfirst ih

/-- A handshake goes on with one more command and the line that answers it. -/
theorem Shaken.concat {texts : List String} {es : List Entry} (h : Shaken texts es)
    {text line : String} {octets : List UInt8} (hframe : Line.frame text = some octets)
    (t t' : Nat) :
    Shaken (texts ++ [text]) (es ++ [.sent t octets, .heard t' line]) := by
  cases h with
  | mk hbanner hrest => exact .mk hbanner (hrest.concat hframe t t')

theorem sinceOpened_cons {es : List Entry} (h : sinceOpened past = some es) (e : Entry) :
    sinceOpened (.entry e :: past) = some (es ++ [e]) := by
  rw [sinceOpened, h]
  rfl

/-- Once the handshake is complete it stays so, as long as no other state is published. -/
theorem HandshakeDone.cons (h : HandshakeDone c past) {e : Entry}
    (he : ∀ st, e = .published st → st.isConnected = true) :
    HandshakeDone c (.entry e :: past) := by
  obtain ⟨es, rest, hsince, hes, hrest⟩ := h
  refine ⟨es, rest ++ [e], ?_, hes, fun st hst => ?_⟩
  · rw [sinceOpened_cons hsince, List.append_assoc]
  · rcases List.mem_append.1 hst with hst | hst
    · exact hrest st hst
    · exact he st (List.mem_singleton.1 hst).symm

/-- What was told at a stage, and what happens there, is what is told at the next one. -/
theorem Advances.told (h : Advances c st x st') (ht : st.Told c past) : st'.Told c (x :: past) := by
  cases h with
  | dial | redial => exact ⟨past, rfl⟩
  | @connect t =>
    obtain ⟨before, rfl⟩ := ht
    exact ⟨t, before, rfl⟩
  | start =>
    obtain ⟨t, before, rfl⟩ := ht
    rfl
  | @banner t line hline =>
    have hsince : sinceOpened past = some [.published .handshaking] := ht
    exact ⟨t, line, sinceOpened_cons hsince _, hline⟩
  | @greeting t' line =>
    obtain ⟨t, first, hsince, hfirst⟩ := ht
    exact ⟨_, sinceOpened_cons hsince _, .mk hfirst .nil⟩
  | @ask n t text octets htext hframe =>
    obtain ⟨es, hsince, hes⟩ := ht
    exact ⟨es, t, text, octets, sinceOpened_cons hsince _, hes, htext, hframe⟩
  | @answer n t' line =>
    obtain ⟨es, t, text, octets, hsince, hes, htext, hframe⟩ := ht
    -- The command that was asked last is the next one of the handshake.
    refine ⟨_, sinceOpened_cons hsince _, ?_⟩
    rw [List.take_add_one, htext, List.append_assoc]
    exact hes.concat hframe t t'
  | register =>
    obtain ⟨es, hsince, hes⟩ := ht
    rw [List.take_length] at hes
    have hdone : HandshakeDone c past := ⟨es, [], by rw [hsince, List.append_nil], hes, nofun⟩
    refine hdone.cons ?_
    rintro st ⟨⟩
    rfl
  | stream =>
    refine HandshakeDone.cons ht ?_
    rintro st ⟨⟩
    rfl
  | hear | beat => exact HandshakeDone.cons ht nofun
  | stranger _ | fail _ | stop _ => trivial

theorem Course.told (h : Course c past st) : st.Told c past := by
  induction h with
  | nil => trivial
  | cons _ hstep ih => exact hstep.told ih

/-- What is written at a stage, and in which state. -/
theorem Advances.writes {t : Nat} {octets : List UInt8}
    (h : Advances c st (.entry (.sent t octets)) st') :
    (st.state = .handshaking ∧ ∃ text ∈ handshake c, Line.frame text = some octets) ∨
      (st.state = .streaming ∧ octets = [Line.lf]) := by
  cases h with
  | ask htext hframe => exact Or.inl ⟨rfl, _, List.mem_of_getElem? htext, hframe⟩
  | beat => exact Or.inr ⟨rfl, rfl⟩

/-- A state that is published before the end follows the state before it. -/
theorem Advances.follows {s : StreamState} (h : Advances c st (.entry (.published s)) st')
    (hlive : st' ≠ .stopped) : Follows st.state s ∧ st'.state = s := by
  cases h with
  | dial => exact ⟨.dial, rfl⟩
  | redial => exact ⟨.redial, rfl⟩
  | start => exact ⟨.begin, rfl⟩
  | register => exact ⟨.register, rfl⟩
  | stream => exact ⟨.stream, rfl⟩
  | fail hmay =>
    refine ⟨?_, rfl⟩
    cases st with
    | dialling | begun | bannered | refused | answered n | asked n => exact .refuse
    | streaming => exact .interrupt
    | idle | opened | registered | failed | stopped => cases hmay
  | stop _ => exact absurd rfl hlive

/-- Nothing happens after the end. -/
theorem Advances.live (h : Advances c st x st') : st ≠ .stopped := by
  cases h with
  | fail hmay =>
    rintro rfl
    cases hmay
  | stop hlive => exact hlive
  | dial | redial | connect | start | banner _ | stranger _ | greeting | ask _ _ | answer | register
  | stream | hear | beat => exact nofun

/-- What is not published leaves the state as it is. -/
theorem Advances.quiet (h : Advances c st x st') (hx : ∀ s, x ≠ .entry (.published s)) :
    st'.state = st.state := by
  cases h with
  | connect | banner _ | stranger _ | greeting | ask _ _ | answer | hear | beat => rfl
  | dial | redial | start | register | stream | fail _ | stop _ => exact absurd rfl (hx _)

theorem statesIn_published (s : StreamState) :
    statesIn (.entry (.published s) :: past) = statesIn past ++ [s] := by
  simp [statesIn, List.filterMap_append]

theorem statesIn_quiet (hx : ∀ s, x ≠ .entry (.published s)) :
    statesIn (x :: past) = statesIn past := by
  unfold statesIn
  rw [List.reverse_cons, List.filterMap_append]
  rcases x with (⟨t, octets⟩ | ⟨t, line⟩ | s) | t
  · exact List.append_nil _
  · exact List.append_nil _
  · exact absurd rfl (hx s)
  · exact List.append_nil _

/-- **The states published before the end form a path** from the first state to the present one. -/
theorem Course.path (h : Course c past st) (hlive : st ≠ .stopped) :
    List.IsChain Follows (.disconnected :: statesIn past) ∧
      (.disconnected :: statesIn past).getLast? = some st.state := by
  induction h with
  | nil => exact ⟨List.isChain_singleton _, rfl⟩
  | @cons past st st' x _ hstep ih =>
    obtain ⟨hchain, hlast⟩ := ih hstep.live
    by_cases hx : ∃ s, x = .entry (.published s)
    · obtain ⟨s, rfl⟩ := hx
      obtain ⟨hfollows, hstate⟩ := hstep.follows hlive
      rw [statesIn_published, ← List.cons_append, hstate]
      refine ⟨hchain.append (List.isChain_singleton _) fun a ha b hb => ?_, List.getLast?_concat⟩
      rw [hlast, Option.mem_some_iff] at ha
      rw [List.head?_cons, Option.mem_some_iff] at hb
      rwa [← ha, ← hb]
    · have hquiet : ∀ s, x ≠ .entry (.published s) := fun s heq => hx ⟨s, heq⟩
      rw [statesIn_quiet hquiet, hstep.quiet hquiet]
      exact ⟨hchain, hlast⟩

/-- A course that has come to its end did so by publishing that it is disconnected. -/
theorem Course.of_stopped (h : Course c past .stopped) :
    ∃ before st, past = .entry (.published .disconnected) :: before ∧ Course c before st ∧
      st ≠ .stopped := by
  cases h with
  | cons hbefore hstep => cases hstep with
    | stop hlive => exact ⟨_, _, rfl, hbefore, hlive⟩

end Courses

section Sessions

variable {c : Credentials} {before : List Trace} {l : Link}

/-- Reading logs the line that was read, or nothing. -/
theorem hear_onto (before : List Trace) {deadline : Deadline} {now now' : Nat} {heard : Heard} {l' : Link}
    (h : l.hear deadline now = (heard, now', l')) :
    onto before l'.log = heardAt now' heard ++ onto before l.log := by
  have hlog := Link.hear_log l deadline now
  rw [h] at hlog
  simp only at hlog
  rw [hlog]
  cases heard <;> rfl

/-- Writing logs the octets that were written, or nothing. -/
theorem send_onto (before : List Trace) {now : Nat} {text : String} {result : Option Trouble} {l' : Link}
    (h : l.send now text = (result, l')) :
    (result = none ∧ ∃ octets, Line.frame text = some octets ∧
        onto before l'.log = .entry (.sent now octets) :: onto before l.log) ∨
      ((∃ t, result = some t) ∧ onto before l'.log = onto before l.log) := by
  unfold Link.send at h
  split at h
  · cases h
    exact Or.inr ⟨⟨_, rfl⟩, rfl⟩
  · next octets hframe =>
    simp only at h
    split at h
    · cases h
      exact Or.inr ⟨⟨_, rfl⟩, rfl⟩
    · cases h
      exact Or.inl ⟨rfl, octets, hframe, rfl⟩

/-- Reading the banner and the greeting is a course, and leads to the handshake if both were read. -/
theorem greet_course (h : Course c (onto before l.log) .begun) (patience : Deadline) (now : Nat) :
    ∃ st, Course c (onto before (l.greet patience now).link.log) st ∧ st.mayFail = true ∧
      ((l.greet patience now).result = some (.ok ()) → st = .answered 0) := by
  unfold Link.greet
  rcases heq : l.hear patience now with ⟨heard, now', l'⟩
  have hlog := hear_onto before heq
  cases heard with
  | nothing => exact ⟨.begun, hlog ▸ h, rfl, nofun⟩
  | ended => exact ⟨.begun, hlog ▸ h, rfl, nofun⟩
  | failed t => exact ⟨.begun, hlog ▸ h, rfl, nofun⟩
  | line first =>
    simp only
    split
    · next hbanner =>
      have hbannered : Course c (onto before l'.log) .bannered := hlog ▸ h.cons (.banner hbanner)
      rcases heq' : l'.hear patience now' with ⟨heard', now'', l''⟩
      have hlog' := hear_onto before heq'
      cases heard' with
      | nothing => exact ⟨.bannered, hlog' ▸ hbannered, rfl, nofun⟩
      | ended => exact ⟨.bannered, hlog' ▸ hbannered, rfl, nofun⟩
      | failed t => exact ⟨.bannered, hlog' ▸ hbannered, rfl, nofun⟩
      | line greeting => exact ⟨.answered 0, hlog' ▸ hbannered.cons .greeting, rfl, fun _ => rfl⟩
    · next hwrong => exact ⟨.refused, hlog ▸ h.cons (.stranger hwrong), rfl, nofun⟩

/-- A command is written and the line that answers it is read, or the course breaks off. -/
theorem acknowledged_course {n : Nat} (h : Course c (onto before l.log) (.answered n))
    (patience : Deadline) (now : Nat) {text : String} (htext : (handshake c)[n]? = some text) :
    ∃ st, Course c (onto before (l.acknowledged patience now text).link.log) st ∧
      st.mayFail = true ∧
      ∀ a, (l.acknowledged patience now text).result = some (.ok a) → st = .answered (n + 1) := by
  unfold Link.acknowledged
  rcases hsend : l.send now text with ⟨trouble, l'⟩
  rcases send_onto before hsend with ⟨rfl, octets, hframe, hlog⟩ | ⟨⟨t, rfl⟩, hlog⟩
  · have hasked : Course c (onto before l'.log) (.asked n) := hlog ▸ h.cons (.ask htext hframe)
    simp only
    rcases hhear : l'.hear patience now with ⟨heard, now', l''⟩
    have hlog' := hear_onto before hhear
    cases heard with
    | nothing => exact ⟨.asked n, hlog' ▸ hasked, rfl, nofun⟩
    | ended => exact ⟨.asked n, hlog' ▸ hasked, rfl, nofun⟩
    | failed t => exact ⟨.asked n, hlog' ▸ hasked, rfl, nofun⟩
    | line line => exact ⟨.answered (n + 1), hlog' ▸ hasked.cons .answer, rfl, fun _ _ => rfl⟩
  · exact ⟨.answered n, hlog ▸ h, rfl, nofun⟩

/-- The commands of the handshake from the n-th on. -/
theorem register_course {n : Nat} {texts : List String} (stopAt now : Nat)
    (h : Course c (onto before l.log) (.answered n)) (htexts : texts = (handshake c).drop n)
    (hn : n ≤ (handshake c).length) :
    ∃ st, Course c (onto before (register stopAt now l texts).link.log) st ∧ st.mayFail = true ∧
      ((register stopAt now l texts).result = some (.ok ()) →
        st = .answered (handshake c).length) := by
  induction texts generalizing l n now with
  | nil =>
    have hall : n = (handshake c).length :=
      Nat.le_antisymm hn (List.drop_eq_nil_iff.1 htexts.symm)
    exact ⟨.answered n, h, rfl, fun _ => by rw [hall]⟩
  | cons text texts ih =>
    have htext : (handshake c)[n]? = some text := by
      rw [← List.head?_drop, ← htexts]
      rfl
    have hrest : texts = (handshake c).drop (n + 1) := by
      rw [← List.tail_drop, ← htexts]
      rfl
    have hlt : n < (handshake c).length := (List.getElem?_eq_some_iff.1 htext).1
    obtain ⟨st, hcourse, hmay, hdone⟩ := acknowledged_course h (some stopAt) now htext
    unfold register
    generalize l.acknowledged (some stopAt) now text = turn at *
    obtain ⟨result, now', l'⟩ := turn
    rcases result with _ | ⟨f | a⟩
    · exact ⟨st, hcourse, hmay, nofun⟩
    · exact ⟨st, hcourse, hmay, nofun⟩
    · rw [hdone a rfl] at hcourse
      exact ih now' hcourse hrest hlt

/-- Streaming reads lines and writes keepalives, and publishes nothing. -/
theorem streamWith_course {σ : Type} (take : σ → Bool → String → σ) (beat stopAt now : Nat) (x : σ)
    (h : Course c (onto before l.log) .streaming) :
    Course c (onto before (streamWith take beat stopAt now x l).link.log) .streaming := by
  fun_induction streamWith take beat stopAt now x l with
  | case1 now x l due now' l' heq hlate => exact hear_onto before heq ▸ h
  | case2 now x l due now' l' heq hlate t l'' hsent =>
    have hquiet : Course c (onto before l'.log) .streaming := hear_onto before heq ▸ h
    rcases send_onto before hsent with ⟨hnone, -⟩ | ⟨-, hlog⟩
    · cases hnone
    · exact hlog ▸ hquiet
  | case3 now x l due now' l' heq hlate l'' hsent ih =>
    have hquiet : Course c (onto before l'.log) .streaming := hear_onto before heq ▸ h
    rcases send_onto before hsent with ⟨-, octets, hframe, hlog⟩ | ⟨⟨t, ht⟩, -⟩
    · -- The frame of an empty line is its end alone.
      have hbeat : [Line.lf] = octets := Option.some.inj hframe
      subst hbeat
      exact ih (hlog ▸ hquiet.cons .beat)
    · cases ht
  | case4 now x l due now' l' heq => exact hear_onto before heq ▸ h
  | case5 now x l due t now' l' heq => exact hear_onto before heq ▸ h
  | case6 now x l due text now' l' heq htext ih =>
    exact ih (hear_onto before heq ▸ h.cons .hear)
  | case7 now x l due text now' l' heq message htext x' hshut =>
    exact hear_onto before heq ▸ h.cons .hear
  | case8 now x l due text now' l' heq message htext x' hshut ih =>
    exact ih (hear_onto before heq ▸ h.cons .hear)

/-- **Every session is a course**, however it ends. -/
theorem session_course (s : StreamSettings) (stopAt now : Nat) (x : Intake)
    (h : Course s.credentials (onto before l.log) .opened) :
    ∃ st, Course s.credentials (onto before (session s stopAt now x l).link.log) st ∧
      st.mayFail = true := by
  have hbegun : Course s.credentials (onto before (l.publish .handshaking).log) .begun :=
    h.cons .start
  obtain ⟨st, hcourse, hmay, hdone⟩ := greet_course hbegun (some stopAt) now
  unfold session sessionWith
  simp only
  generalize (l.publish .handshaking).greet (some stopAt) now = greeted at *
  obtain ⟨result, now', l'⟩ := greeted
  rcases result with _ | ⟨f | ⟨⟩⟩
  · exact ⟨st, hcourse, hmay⟩
  · exact ⟨st, hcourse, hmay⟩
  · rw [hdone rfl] at hcourse
    obtain ⟨st', hcourse', hmay', hdone'⟩ :=
      register_course stopAt now' hcourse rfl (Nat.zero_le _)
    simp only [registeredWith]
    rw [List.drop_zero] at hcourse' hdone'
    generalize register stopAt now' l' (handshake s.credentials) = known at *
    obtain ⟨result', now'', l''⟩ := known
    rcases result' with _ | ⟨f | ⟨⟩⟩
    · exact ⟨st', hcourse', hmay'⟩
    · exact ⟨st', hcourse', hmay'⟩
    · rw [hdone' rfl] at hcourse'
      exact ⟨.streaming, streamWith_course _ _ _ _ _ ((hcourse'.cons .register).cons .stream), rfl⟩

end Sessions

section Runs

variable {s : StreamSettings} {stopAt : Nat} {closed : Bool}

/-- An attempt goes on with the course of the run. -/
theorem attempt_course (stopAt : Nat) (closed : Bool) {r : StreamRun} {st : Stage}
    (h : Course s.credentials r.trace st) (hst : st = .idle ∨ st = .failed) (a : Attempt) :
    (attempt s stopAt closed a r).run.verdict = r.verdict ∧
      ∃ st', Course s.credentials (attempt s stopAt closed a r).run.trace st' ∧
        st'.mayFail = true := by
  have hdialling : Course s.credentials (r.publish .handshaking).trace .dialling := by
    rcases hst with rfl | rfl
    · exact h.cons .dial
    · exact h.cons .redial
  unfold attempt
  simp only
  split
  · exact ⟨rfl, _, hdialling, rfl⟩
  · split
    · exact ⟨rfl, _, hdialling, rfl⟩
    · next peer _ =>
      refine ⟨rfl, ?_⟩
      exact session_course (l := { Link.ofPeer peer with inboxShut := closed }) s stopAt _ _
        (hdialling.cons .connect)

/-- **Every run is a course**, and it has come to its end if its last stage says so. -/
theorem runFrom_course {r : StreamRun} {st : Stage} (h : Course s.credentials r.trace st)
    (hst : st = .idle ∨ st = .failed) (hrunning : r.verdict = .running) (attempts : List Attempt) :
    ∃ st', Course s.credentials (runFrom s stopAt closed attempts r).trace st' ∧
      (st' = .stopped ↔ (runFrom s stopAt closed attempts r).verdict = .stopped) := by
  have hlive : st ≠ .stopped := by
    rcases hst with rfl | rfl <;> exact nofun
  -- Every attempt begins at `idle` or after a fault, so the induction runs over both.
  induction attempts generalizing closed r st with
  | nil =>
    unfold runFrom
    split
    · exact ⟨.stopped, h.cons (.stop hlive), by simp [StreamRun.stop]⟩
    · exact ⟨st, h, by simp [hlive, hrunning]⟩
  | cons a attempts ih =>
    unfold runFrom
    split
    · exact ⟨.stopped, h.cons (.stop hlive), by simp [StreamRun.stop]⟩
    · obtain ⟨hverdict, st', hcourse, hmay⟩ :=
        attempt_course stopAt closed h hst a
      have hlive' : st' ≠ .stopped := by
        rintro rfl
        cases hmay
      generalize attempt s stopAt closed a r = done at *
      obtain ⟨result, shut, r'⟩ := done
      rcases result with _ | ⟨f | ⟨⟩⟩
      · exact ⟨.stopped, hcourse.cons (.stop hlive'), by simp [StreamRun.stop]⟩
      · have hfailed : Course s.credentials (r'.publish .failed).trace .failed :=
          hcourse.cons (.fail hmay)
        simp only
        split
        · exact ⟨.failed, hfailed, by simp⟩
        · split
          · exact ⟨.stopped, hfailed.cons (.stop nofun), by simp [StreamRun.stop]⟩
          · exact ih (r := { r'.publish .failed with now := r'.now + s.pause }) hfailed
              (Or.inr rfl) (hverdict.trans hrunning) nofun
      · exact ⟨.stopped, hcourse.cons (.stop hlive'), by simp [StreamRun.stop]⟩

theorem run_course (s : StreamSettings) (stopAt : Nat) (closed : Bool) (attempts : List Attempt) :
    ∃ st, Course s.credentials (run s stopAt closed attempts).trace st ∧
      (st = .stopped ↔ (run s stopAt closed attempts).verdict = .stopped) :=
  runFrom_course .nil (Or.inl rfl) rfl attempts

/-- **The stream counts as connected only after its handshake.** In every run of the loop the published
states form a path, which ends with `disconnected` if the loop was stopped. A second `handshaking` is
published when a stream was opened. Whenever the state counts as connected, the banner, the greeting
and an answer to each command of the handshake were read on the current stream, in this order, and no
other state was published since. What is written while handshaking is a command of the handshake, what
is written while streaming is an empty line, and nothing is written in any other state. -/
theorem connected_once_registered (s : StreamSettings) (stopAt : Nat) (closed : Bool)
    (attempts : List Attempt) :
    let r := run s stopAt closed attempts
    (∃ states, statesIn r.trace =
        states ++ (if r.verdict = .stopped then [.disconnected] else []) ∧
      List.IsChain Follows (.disconnected :: states)) ∧
    (∀ later past, r.trace = later ++ .entry (.published .handshaking) :: past →
      reached past = .handshaking →
      ∃ t before, past = .opened t :: .entry (.published .handshaking) :: before) ∧
    (∀ later past, r.trace = later ++ past → (reached past).isConnected = true →
      HandshakeDone s.credentials past) ∧
    (∀ later past t octets, r.trace = later ++ .entry (.sent t octets) :: past →
      (reached past = .handshaking ∧
        ∃ text ∈ handshake s.credentials, Line.frame text = some octets) ∨
      (reached past = .streaming ∧ octets = [Line.lf])) := by
  intro r
  obtain ⟨st, hcourse, hstopped⟩ := run_course s stopAt closed attempts
  have hcut : ∀ later past, r.trace = later ++ past → ∃ st, Course s.credentials past st := by
    intro later past heq
    have hwhole : Course s.credentials (later ++ past) st := heq ▸ hcourse
    exact hwhole.earlier
  refine ⟨?_, fun later past heq hstate => ?_, fun later past heq hconnected => ?_,
    fun later past t octets heq => ?_⟩
  · by_cases hend : st = .stopped
    · subst hend
      obtain ⟨before, st', htrace, hbefore, hlive⟩ := hcourse.of_stopped
      refine ⟨statesIn before, ?_, (hbefore.path hlive).1⟩
      rw [if_pos (hstopped.1 rfl), ← statesIn_published]
      exact congrArg statesIn htrace
    · refine ⟨statesIn r.trace, ?_, (hcourse.path hend).1⟩
      rw [if_neg fun hverdict => hend (hstopped.2 hverdict), List.append_nil]
  · obtain ⟨st', hnow⟩ := hcut later _ heq
    cases hnow with
    | @cons _ st₀ _ _ hpast hstep =>
      rw [hpast.state] at hstate
      cases hstep with
      | start => exact hpast.told
      | dial | redial => cases hstate
  · obtain ⟨st', hpast⟩ := hcut later past heq
    rw [hpast.state] at hconnected
    have htold := hpast.told
    cases st' with
    | registered | streaming => exact htold
    | idle | dialling | opened | begun | bannered | refused | answered n | asked n | failed | stopped =>
      cases hconnected
  · obtain ⟨st', hnow⟩ := hcut later _ heq
    cases hnow with
    | cons hpast hstep =>
      rw [hpast.state]
      exact hstep.writes

-- The first attempt is given up while dialling, the second one streams until the signal to stop.
example :
    let s : StreamSettings := ⟨⟨"bot", "secret", "voice", 10011, 1⟩, 1000, 500, 2000⟩
    let lines := Utf8.encode "TS3\n\rHi\n\rok\n\rok\n\rok\n\r".toList
    let r := run s 9000 false [⟨3000, .ok ⟨[], none⟩⟩, ⟨5, .ok ⟨[.data lines], none⟩⟩]
    r.verdict = .stopped ∧ statesIn r.trace = [.handshaking, .failed, .handshaking, .handshaking,
      .registered, .streaming, .disconnected] := by
  decide +kernel

end Runs

end EventStream

end VoiceRelay
