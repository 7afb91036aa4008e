import VoiceRelay.Proofs.Hearing

/-!
# What is said on a connection

The transcript of a connection is what was sent and what was read on it, in that order. It consists
of the lines of the greeting and of exchanges: a command and the lines that were read after it, up to
a status line if the exchange was not cut short.

**Design.** `Link.Continues` says that a connection has said more and still stands where its lines
end in the octets of its session; every operation of a connection is described by the events that it
adds. `Exchange.Gives` lists the four ways in which an exchange ends, each with what it returns, so
that what a command returns is a function of the lines of its own exchange.

**Results.**

- `hear_continues`, `send_continues`, `greet_continues`: what reading, writing and greeting add.
- `reply_gives`: a reply is read up to its first status line or cut short before it.
- `command_gives`: a command adds one exchange, or nothing if it could not be written.
-/

namespace VoiceRelay

/-- What one side said on a connection. -/
inductive Event
  | sent (octets : List UInt8)
  | heard (line : String)
  deriving DecidableEq, Repr

section Defs

/-- What a log entry says of what was said. -/
def Entry.event? : Entry → Option Event
  | .sent _ octets => some (.sent octets)
  | .heard _ line => some (.heard line)
  | .published _ => none

/-- The line of an event that was read. -/
def Event.line? : Event → Option String
  | .sent _ => none
  | .heard line => some line

/-- The octets of an event that was sent. -/
def Event.octets : Event → List UInt8
  | .sent octets => octets
  | .heard _ => []

/-- What was said on a connection, oldest first. -/
def Link.transcript (l : Link) : List Event := l.log.reverse.filterMap Entry.event?

/-- The lines read on a connection, oldest first. -/
def Link.heardLines (l : Link) : List String := l.transcript.filterMap Event.line?

/-- A connection reads a session: the lines it has read are the first lines of the session's octets,
and what is still to come begins right after the last of them. -/
structure Link.Follows (p : Peer) (l : Link) : Prop where
  lines : (Line.takeLines l.heardLines.length (scriptOctets p.script)).1.map Line.textOf =
    l.heardLines
  left : (Line.takeLines l.heardLines.length (scriptOctets p.script)).2 = l.octets
  drained : l.Drained

/-- A connection after some more was said on it; it reads the session that it read before. -/
structure Link.Continues (l l' : Link) (events : List Event) : Prop where
  transcript_eq : l'.transcript = l.transcript ++ events
  follows : ∀ p, l.Follows p → l'.Follows p

/-- The octets of a command on the wire. -/
def Line.written (command : String) : List UInt8 := Utf8.encode command.toList ++ [Line.lf]

/-- A command and the lines that were read after it. -/
structure Exchange where
  command : String
  lines : List String
  deriving DecidableEq, Repr

namespace Exchange

/-- An exchange as it is said. -/
def events (x : Exchange) : List Event :=
  .sent (Line.written x.command) :: x.lines.map .heard

/-- No status line was read yet. -/
def Open (x : Exchange) : Prop := ∀ line ∈ x.lines, Status.parse? line = none

/-- The reply is whole: the last line is a status line, and the only one. -/
def Closed (x : Exchange) (s : Status) : Prop :=
  ∃ before last, x.lines = before ++ [last] ∧ (∀ line ∈ before, Status.parse? line = none) ∧
    Status.parse? last = some s

/-- The records in the lines before the last one. -/
def records (x : Exchange) : List Record := x.lines.dropLast.flatMap Link.recordsIn

/-- What an exchange returns; no result if its caller gave up. -/
inductive Gives (x : Exchange) : Option (Except Fault (List Record)) → Prop
  | accepted {s : Status} : x.Closed s → s.isOk = true → Gives x (some (.ok x.records))
  | refused {s : Status} : x.Closed s → s.isOk = false →
      Gives x (some (.error (.refusal s.id s.message)))
  | broken {f : Fault} : x.Open → f.losesLink = true → Gives x (some (.error f))
  | givenUp : x.Open → Gives x none

end Exchange

/-- What the lines of a greeting and the outcome of reading it have to do with each other. -/
inductive Greeted (opening : List String) : Option (Except Fault Unit) → Prop
  | whole {first second : String} : opening = [first, second] →
      Text.trim first.toList = Link.banner → Greeted opening (some (.ok ()))
  | broken {f : Fault} : opening.length ≤ 2 → f.losesLink = true →
      Greeted opening (some (.error f))
  | givenUp : opening.length ≤ 2 → Greeted opening none

end Defs

namespace Link

section Continuing

@[simp] theorem transcript_note (l : Link) (e : Entry) :
    (l.note e).transcript = l.transcript ++ e.event?.toList := by
  unfold transcript note
  rw [List.reverse_cons, List.filterMap_append]
  cases h : e.event? <;> simp [h]

theorem Continues.refl (l : Link) : l.Continues l [] :=
  ⟨by simp, fun _ h => h⟩

theorem Continues.trans {l₁ l₂ l₃ : Link} {a b : List Event} (h₁ : l₁.Continues l₂ a)
    (h₂ : l₂.Continues l₃ b) : l₁.Continues l₃ (a ++ b) :=
  ⟨by rw [h₂.transcript_eq, h₁.transcript_eq, List.append_assoc],
    fun p h => h₂.follows p (h₁.follows p h)⟩

theorem heardLines_of_transcript {l l' : Link} {events : List Event}
    (h : l'.transcript = l.transcript ++ events) :
    l'.heardLines = l.heardLines ++ events.filterMap Event.line? := by
  unfold heardLines
  rw [h, List.filterMap_append]

/-- A fresh connection stands at the beginning of its session. -/
theorem follows_ofPeer (p : Peer) : (ofPeer p).Follows p where
  lines := rfl
  left := rfl
  drained := fun h => by cases h

/-- If nothing was read, a connection stands where it stood. -/
theorem Follows.of_octets {p : Peer} {l l' : Link} (h : l.Follows p)
    (hlines : l'.heardLines = l.heardLines) (hoctets : l'.octets = l.octets)
    (hd : l'.Drained) : l'.Follows p where
  lines := by rw [hlines]; exact h.lines
  left := by rw [hlines, hoctets]; exact h.left
  drained := hd

/-- Reading one more line moves a connection behind that line. -/
theorem Follows.of_line {p : Peer} {l l' : Link} {line : List UInt8} (h : l.Follows p)
    (hlines : l'.heardLines = l.heardLines ++ [Line.textOf line])
    (ht : Line.take true l.octets = some (line, l'.octets)) (hd : l'.Drained) :
    l'.Follows p := by
  have hn : (Line.takeLines l.heardLines.length (scriptOctets p.script)).1.length =
      l.heardLines.length := by
    conv_rhs => rw [← h.lines]
    rw [List.length_map]
  have hstep := Line.takeLines_succ hn (by rw [h.left]; exact ht)
  have hlen : l'.heardLines.length = l.heardLines.length + 1 := by
    rw [hlines, List.length_append, List.length_singleton]
  constructor
  · rw [hlen, hstep, List.map_append, h.lines, hlines]
    rfl
  · rw [hlen, hstep]
  · exact hd

/-- A read adds the line that it gives, if it gives one. -/
theorem hear_continues {l l' : Link} {deadline : Deadline} {now now' : Nat} {heard : Heard}
    (h : l.hear deadline now = (heard, now', l')) :
    (∃ text, heard = .line text ∧ l.Continues l' [.heard text]) ∨
      ((∀ text, heard ≠ .line text) ∧ l.Continues l' []) := by
  have htakes := hear_takes l deadline now
  have hlog := hear_log l deadline now
  rw [h] at htakes hlog
  cases heard with
  | line text =>
    left
    have htr : l'.transcript = l.transcript ++ [.heard text] := by
      unfold transcript
      rw [hlog, List.reverse_cons, List.filterMap_append]
      rfl
    refine ⟨text, rfl, htr, fun p hp => ?_⟩
    obtain ⟨⟨line, rfl, ht⟩, hd⟩ := htakes hp.drained
    exact hp.of_line (heardLines_of_transcript htr) ht hd
  | ended | failed _ | nothing =>
    right
    have htr : l'.transcript = l.transcript ++ [] := by
      unfold transcript
      rw [hlog, List.append_nil]
    refine ⟨fun text ht => (by cases ht), htr, fun p hp => ?_⟩
    obtain ⟨ho, hd⟩ := htakes hp.drained
    exact hp.of_octets (by simpa using heardLines_of_transcript htr) ho hd

/-- A write adds the octets of the command, unless it fails. -/
theorem send_continues (l : Link) (now : Nat) (command : String) :
    (∃ t, (l.send now command).1 = some t ∧ l.Continues (l.send now command).2 []) ∨
      ((l.send now command).1 = none ∧ Line.breaks command = false ∧
        l.Continues (l.send now command).2 [.sent (Line.written command)]) := by
  have hkeep : ∀ p, l.Follows p → ∀ events : List Event, events.filterMap Event.line? = [] →
      (l.send now command).2.transcript = l.transcript ++ events →
      (l.send now command).2.Follows p := by
    intro p hp events hnone htr
    refine hp.of_octets ?_ (send_octets l now command) (send_drained now command hp.drained)
    rw [heardLines_of_transcript htr, hnone, List.append_nil]
  unfold send at hkeep ⊢
  unfold Line.frame at hkeep ⊢
  by_cases hb : Line.breaks command = true
  · rw [if_pos hb] at hkeep ⊢
    exact Or.inl ⟨_, rfl, Continues.refl l⟩
  · rw [if_neg hb] at hkeep ⊢
    simp only at hkeep ⊢
    by_cases hr : l.refuses = true
    · rw [if_pos hr] at hkeep ⊢
      have htr : ({ l with writes := l.writes + 1 } : Link).transcript =
          l.transcript ++ [] := by simp [transcript]
      exact Or.inl ⟨_, rfl, htr, fun p hp => hkeep p hp [] rfl htr⟩
    · rw [if_neg hr] at hkeep ⊢
      have htr : (({ l with writes := l.writes + 1 } : Link).note
          (.sent now (Utf8.encode command.toList ++ [Line.lf]))).transcript =
          l.transcript ++ [.sent (Line.written command)] := by
        rw [transcript_note]
        rfl
      exact Or.inr ⟨rfl, by simpa using hb, htr, fun p hp => hkeep p hp _ rfl htr⟩

end Continuing

section Exchanges

/-- **What a greeting adds**: at most two lines, and two of which the first is the banner if it ends
well. -/
theorem greet_continues (l : Link) (patience : Deadline) (now : Nat) :
    ∃ opening : List String, Greeted opening (l.greet patience now).result ∧
      l.Continues (l.greet patience now).link (opening.map .heard) := by
  unfold greet
  rcases h₁ : l.hear patience now with ⟨heard, now₁, l₁⟩
  rcases hear_continues h₁ with ⟨first, rfl, hc₁⟩ | ⟨hne, hc₁⟩
  · simp only
    split
    · next hbanner =>
      rcases h₂ : l₁.hear patience now₁ with ⟨heard, now₂, l₂⟩
      rcases hear_continues h₂ with ⟨second, rfl, hc₂⟩ | ⟨hne, hc₂⟩
      · exact ⟨[first, second], .whole rfl hbanner, hc₁.trans hc₂⟩
      · refine ⟨[first], ?_⟩
        cases heard with
        | line text => exact absurd rfl (hne text)
        | ended => exact ⟨.broken (by simp) rfl, hc₁.trans hc₂⟩
        | failed t => exact ⟨.broken (by simp) rfl, hc₁.trans hc₂⟩
        | nothing => exact ⟨.givenUp (by simp), hc₁.trans hc₂⟩
    · exact ⟨[first], .broken (by simp) rfl, hc₁⟩
  · refine ⟨[], ?_⟩
    cases heard with
    | line text => exact absurd rfl (hne text)
    | ended => exact ⟨.broken (by simp) rfl, hc₁⟩
    | failed t => exact ⟨.broken (by simp) rfl, hc₁⟩
    | nothing => exact ⟨.givenUp (by simp), hc₁⟩

/-- **A reply is read up to its first status line**, or cut short before it. The lines `seen` of the
same exchange were read before. -/
theorem reply_gives (command : String) (l : Link) (deadline : Deadline) (now : Nat)
    (records : List Record) (seen : List String)
    (hopen : ∀ line ∈ seen, Status.parse? line = none) (hr : records = seen.flatMap recordsIn) :
    ∃ more : List String,
      l.Continues (l.reply deadline now records).link (more.map .heard) ∧
      Exchange.Gives ⟨command, seen ++ more⟩ (l.reply deadline now records).result := by
  fun_induction Link.reply l deadline now records generalizing seen with
  | case1 l now records now' l' h =>
    obtain ⟨_, ht, _⟩ | ⟨_, hc⟩ := hear_continues h
    · cases ht
    · exact ⟨[], hc, .givenUp (by simpa [Exchange.Open] using hopen)⟩
  | case2 l now records now' l' h =>
    obtain ⟨_, ht, _⟩ | ⟨_, hc⟩ := hear_continues h
    · cases ht
    · exact ⟨[], hc, .broken (by simpa [Exchange.Open] using hopen) rfl⟩
  | case3 l now records t now' l' h =>
    obtain ⟨_, ht, _⟩ | ⟨_, hc⟩ := hear_continues h
    · cases ht
    · exact ⟨[], hc, .broken (by simpa [Exchange.Open] using hopen) rfl⟩
  | case4 l now records text now' l' h s hs hok =>
    obtain ⟨_, ht, hc⟩ | ⟨hne, _⟩ := hear_continues h
    · cases ht
      have hclosed : Exchange.Closed ⟨command, seen ++ [text]⟩ s := ⟨seen, text, rfl, hopen, hs⟩
      have hrecords : records = Exchange.records ⟨command, seen ++ [text]⟩ := by
        simp [Exchange.records, hr]
      exact ⟨[text], hc, hrecords ▸ .accepted hclosed hok⟩
    · exact absurd rfl (hne text)
  | case5 l now records text now' l' h s hs hok =>
    obtain ⟨_, ht, hc⟩ | ⟨hne, _⟩ := hear_continues h
    · cases ht
      have hclosed : Exchange.Closed ⟨command, seen ++ [text]⟩ s := ⟨seen, text, rfl, hopen, hs⟩
      exact ⟨[text], hc, .refused hclosed (by simpa using hok)⟩
    · exact absurd rfl (hne text)
  | case6 l now records text now' l' h hs ih =>
    obtain ⟨_, ht, hc⟩ | ⟨hne, _⟩ := hear_continues h
    · cases ht
      have hopen' : ∀ line ∈ seen ++ [text], Status.parse? line = none := by
        intro line hline
        rcases List.mem_append.1 hline with hl | hl
        · exact hopen line hl
        · rw [List.mem_singleton.1 hl]
          exact hs
      obtain ⟨more, hmore, hgives⟩ := ih (seen ++ [text]) hopen' (by simp [hr])
      refine ⟨text :: more, hc.trans hmore, ?_⟩
      simpa using hgives
    · exact absurd rfl (hne text)

/-- What sending a command and reading its reply adds: nothing if the command could not be written,
else one exchange, and what is returned is what that exchange gives. -/
theorem command_gives (l : Link) (timeLimit : Nat) (patience : Deadline) (now : Nat)
    (text : String) :
    (∃ t, (l.command timeLimit patience now text).result = some (.error (.stream t)) ∧
        l.Continues (l.command timeLimit patience now text).link []) ∨
      (∃ x : Exchange, x.command = text ∧ Line.breaks text = false ∧
        l.Continues (l.command timeLimit patience now text).link x.events ∧
        x.Gives (l.command timeLimit patience now text).result) := by
  unfold command
  rcases hs : l.send now text with ⟨t?, l₁⟩
  have hsend := l.send_continues now text
  rw [hs] at hsend
  rcases hsend with ⟨t, rfl, hc⟩ | ⟨rfl, hb, hc⟩
  · exact Or.inl ⟨t, rfl, hc⟩
  · obtain ⟨more, hmore, hgives⟩ :=
      reply_gives text l₁ (Deadline.earlier (some (now + timeLimit)) patience) now [] [] (by simp) rfl
    refine Or.inr ⟨⟨text, more⟩, rfl, hb, ?_⟩
    simp only
    generalize l₁.reply (Deadline.earlier (some (now + timeLimit)) patience) now [] = turn at *
    have hall : l.Continues turn.link (Exchange.events ⟨text, more⟩) := hc.trans hmore
    cases hresult : turn.result with
    | some r =>
      rw [hresult] at hgives
      simp only [hresult]
      exact ⟨hall, hgives⟩
    | none =>
      rw [hresult] at hgives
      simp only
      -- Whoever gave up first, the status line was not read.
      split
      · exact ⟨hall, hresult ▸ hgives⟩
      · cases hgives with
        | givenUp hopen => exact ⟨hall, .broken hopen rfl⟩

end Exchanges

end Link
end VoiceRelay
