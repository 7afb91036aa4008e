import VoiceRelay.Query.EventStream
import VoiceRelay.Proofs.Commands
import VoiceRelay.Proofs.SteadyReading

/-!
# Server chat is relayed as it was sent

A session of the event stream passes on the texts of the lines after its handshake, whatever the
pieces are in which the stream arrives, however long the pauses between them are, and however often
a keepalive is written in the middle of a line.

**Design.** `Link.Ends` are the two ways in which a session on a steady connection ends: it is dropped
while it waits for a line, or the stream ends and every line was read. Each part of a session is
described by the lines that it reads (`Link.Proceeds`, `Link.Ends`), and the parts are put together
by `Passes.trans`.

**Results.**

- `register_proceeds`, `greet_proceeds`: the handshake reads five lines or ends early.
- `streamWith_ends`: what streaming reads and takes in.
- `sessionWith_ends`: the same for a whole session, for every way of taking messages in.
- `relay_exact`: the messages relayed are a function of the octets of the stream.
-/

namespace VoiceRelay

section Defs

/-- The messages in some lines. -/
def messagesOf (lines : List (List UInt8)) : List String :=
  lines.filterMap fun line => Notice.text? (Line.textOf line)

namespace Link

/-- A write was refused. -/
def Refused (l : Link) : Prop := ∃ k, l.accepted = some k ∧ k < l.writes

/-- An exchange failed because a write was refused. -/
def Turn.Unwritten {α : Type} (turn : Turn α) : Prop :=
  (∃ f, turn.result = some (.error f)) ∧ turn.link.Refused

/-- How an exchange or a session ends that does not get through: it is dropped while it waits for a
line, or the stream ends; in both cases `lines` were read before. -/
inductive Ends {α : Type} (l : Link) (lines : List (List UInt8)) (l' : Link) :
    Option (Except Fault α) → Prop
  | dropped : l.Passes lines l' → l'.Waiting → Ends l lines l' none
  | ended {l₁ : Link} {f : Fault} : l.Passes lines l₁ → l₁.octets = [] →
      Ends l lines l' (some (.error f))

/-- An exchange reads a number of lines, or ends before. -/
inductive Proceeds {α : Type} (l : Link) (n : Nat) (turn : Turn α) : Prop
  | done {a : α} {lines : List (List UInt8)} : turn.result = some (.ok a) → lines.length = n →
      l.Passes lines turn.link → Proceeds l n turn
  | ends {lines : List (List UInt8)} : lines.length ≤ n → l.Ends lines turn.link turn.result →
      Proceeds l n turn

end Link

/-- The other side of a session of the event stream that nothing disturbs: it brings no trouble, its
lines are short, and the first of them is the banner. -/
structure Peer.Undisturbed (p : Peer) : Prop where
  calm : ∀ s ∈ p.script, s.Calm
  short : Line.Short (scriptOctets p.script)
  banner : ∀ line, (Line.all (scriptOctets p.script)).head? = some line →
    Text.trim (Line.textOf line).toList = Link.banner

/-- The messages that a session has to relay: those in the lines after the handshake, cut from the
octets as a whole. What follows the last delimiter is a line once the stream has ended. -/
def Peer.messages (p : Peer) (dropped : Bool) : List String :=
  messagesOf
    ((if dropped then Line.ended (scriptOctets p.script)
      else Line.all (scriptOctets p.script)).drop 5)

/-- A session of the event stream on a fresh connection, with a journal or without. -/
def relay (s : StreamSettings) (stopAt start : Nat) (chatLog : Option ChatLog) (p : Peer) :
    SessionOf Relay :=
  EventStream.sessionWith Relay.take s stopAt start ⟨⟨[], []⟩, chatLog⟩ (.ofPeer p)

end Defs

section Messages

variable {line : List UInt8} {lines : List (List UInt8)}

theorem messagesOf_cons_none (h : Notice.text? (Line.textOf line) = none) :
    messagesOf (line :: lines) = messagesOf lines := by
  unfold messagesOf
  rw [List.filterMap_cons, h]

theorem messagesOf_cons_some {message : String}
    (h : Notice.text? (Line.textOf line) = some message) :
    messagesOf (line :: lines) = message :: messagesOf lines := by
  unfold messagesOf
  rw [List.filterMap_cons, h]

end Messages

namespace Link

section Exchanges

variable {l l' : Link}

theorem Ends.after {α : Type} {l₁ : Link} {a b : List (List UInt8)}
    {r : Option (Except Fault α)} (h : l.Passes a l₁) (h' : l₁.Ends b l' r) :
    l.Ends (a ++ b) l' r := by
  cases h' with
  | dropped hp hw => exact .dropped (h.trans hp) hw
  | ended hp hnil => exact .ended (h.trans hp) hnil

/-- Writing a line passes none, unless the write is refused. -/
theorem send_steady (h : l.Steady) (now : Nat) {command : String}
    (hb : Line.breaks command = false) :
    ((l.send now command).1 = none ∧ l.Passes [] (l.send now command).2) ∨
      (∃ t, (l.send now command).1 = some t) ∧ (l.send now command).2.Refused := by
  have hpasses : l.Passes [] { l with writes := l.writes + 1 } :=
    ⟨⟨h.calm, h.fit, h.short, h.inbox, h.drained⟩, rfl, fun hphase => ⟨hphase, rfl⟩⟩
  unfold send Line.frame
  rw [hb, if_neg Bool.false_ne_true]
  simp only
  by_cases hr : l.refuses = true
  · rw [if_pos hr]
    refine Or.inr ⟨⟨_, rfl⟩, ?_⟩
    unfold refuses at hr
    split at hr
    · cases hr
    · next k hk =>
      exact ⟨k, hk, Nat.lt_succ_of_le (of_decide_eq_true hr)⟩
  · rw [if_neg hr]
    exact Or.inl ⟨rfl, hpasses.trans (note_passes hpasses.steady _)⟩

/-- An acknowledged command reads one line, ends early, or cannot be written. -/
theorem acknowledged_proceeds (h : l.Steady) (patience : Deadline) (now : Nat) {text : String}
    (hb : Line.breaks text = false) :
    (l.acknowledged patience now text).Unwritten ∨
      l.Proceeds 1 (l.acknowledged patience now text) := by
  have hsend := send_steady h now hb
  unfold acknowledged
  generalize l.send now text = sent at *
  obtain ⟨t, l₁⟩ := sent
  rcases hsend with ⟨ht, hpasses⟩ | ⟨⟨t, ht⟩, href⟩
  · simp only at ht hpasses
    subst ht
    have hhear := hear_steady hpasses.steady patience now
    right
    simp only
    generalize l₁.hear patience now = out at *
    obtain ⟨heard, now', l₂⟩ := out
    cases hhear with
    | line hline => exact .done rfl rfl (hpasses.trans hline)
    | nothing hwait hw => exact .ends (by simp) (.dropped (hpasses.trans hwait) hw)
    | ended hnil => exact .ends (by simp) (.ended hpasses hnil)
  · simp only at ht href
    subst ht
    exact Or.inl ⟨⟨_, rfl⟩, href⟩

/-- The greeting is two lines, the first of which is the banner, or ends early. -/
theorem greet_proceeds (h : l.Steady)
    (hbanner : ∀ line, (Line.all l.octets).head? = some line →
      Text.trim (Line.textOf line).toList = banner) (patience : Deadline) (now : Nat) :
    l.Proceeds 2 (l.greet patience now) := by
  have hfirst := hear_steady h patience now
  unfold greet
  generalize l.hear patience now = out at *
  obtain ⟨heard, now₁, l₁⟩ := out
  cases hfirst with
  | @line line hline =>
    have htrim : Text.trim (Line.textOf line).toList = banner := by
      refine hbanner line ?_
      rw [hline.all_eq]
      rfl
    simp only
    rw [if_pos htrim]
    have hsecond := hear_steady hline.steady patience now₁
    generalize l₁.hear patience now₁ = out at *
    obtain ⟨heard, now₂, l₂⟩ := out
    cases hsecond with
    | line hline' => exact .done rfl rfl (hline.trans hline')
    | nothing hwait hw => exact .ends (by simp) (.dropped (hline.trans hwait) hw)
    | ended hnil => exact .ends (by simp) (.ended hline hnil)
  | nothing hwait hw => exact .ends (by simp) (.dropped hwait hw)
  | ended hnil => exact .ends (by simp) (.ended (Passes.refl h) hnil)

end Exchanges

end Link

namespace EventStream

section Sessions

variable {l : Link}

/-- The commands of a handshake are acknowledged by one line each, unless one cannot be written or
the session ends early. -/
theorem register_proceeds (h : l.Steady) (stopAt now : Nat) {texts : List String}
    (hb : ∀ text ∈ texts, Line.breaks text = false) :
    (register stopAt now l texts).Unwritten ∨
      l.Proceeds texts.length (register stopAt now l texts) := by
  induction texts generalizing l now with
  | nil => exact Or.inr (.done rfl rfl (Link.Passes.refl h))
  | cons text texts ih =>
    have hack := Link.acknowledged_proceeds h (some stopAt) now (hb text List.mem_cons_self)
    have hb' : ∀ text ∈ texts, Line.breaks text = false := fun t ht =>
      hb t (List.mem_cons_of_mem _ ht)
    unfold register
    generalize l.acknowledged (some stopAt) now text = turn at *
    obtain ⟨result, now', l'⟩ := turn
    rcases hack with ⟨⟨f, hf⟩, href⟩ | hproceeds
    · simp only at hf
      subst hf
      exact Or.inl ⟨⟨f, rfl⟩, href⟩
    · cases hproceeds with
      | @done a lines hres hlen hpasses =>
        simp only at hres hpasses
        subst hres
        rcases ih hpasses.steady now' hb' with hunwritten | hrest
        · exact Or.inl hunwritten
        · right
          cases hrest with
          | done hres' hlen' hpasses' =>
            refine .done hres' ?_ (hpasses.trans hpasses')
            rw [List.length_append, hlen, hlen', List.length_cons, Nat.add_comm]
          | ends hlen' hends =>
            refine .ends ?_ (hends.after hpasses)
            rw [List.length_append, List.length_cons]
            omega
      | @ends lines hlen hends =>
        have hlen' : lines.length ≤ (text :: texts).length := by
          rw [List.length_cons]
          omega
        right
        cases hends with
        | dropped hpasses hwait => exact .ends hlen' (.dropped hpasses hwait)
        | ended hpasses hnil => exact .ends hlen' (.ended hpasses hnil)

/-- **What streaming reads and takes in**, however its reads are interrupted by keepalives. -/
theorem streamWith_ends {σ : Type} (take : σ → Bool → String → σ) (beat stopAt now : Nat) (x : σ)
    (h : l.Steady) (hw : ¬ (streamWith take beat stopAt now x l).link.Refused) :
    ∃ lines, l.Ends lines (streamWith take beat stopAt now x l).link
        (streamWith take beat stopAt now x l).result ∧
      (streamWith take beat stopAt now x l).intake =
        (messagesOf lines).foldl (fun x message => take x false message) x := by
  fun_induction streamWith take beat stopAt now x l with
  | case1 now x l due now' l' heq hlate =>
    -- dropped while it waits
    cases Link.hears_of_hear h heq with
    | nothing hpasses hwait => exact ⟨[], .dropped hpasses hwait, rfl⟩
  | case2 now x l due now' l' heq hlate t l'' hsent =>
    cases Link.hears_of_hear h heq with
    | nothing hpasses hwait =>
      have hsend := Link.send_steady hpasses.steady due (by rfl : Line.breaks "" = false)
      rw [hsent] at hsend
      rcases hsend with ⟨hnone, -⟩ | ⟨-, href⟩
      · cases hnone
      · exact absurd href hw
  | case3 now x l due now' l' heq hlate l'' hsent ih =>
    -- a keepalive in the middle of a line
    cases Link.hears_of_hear h heq with
    | nothing hpasses hwait =>
      have hsend := Link.send_steady hpasses.steady due (by rfl : Line.breaks "" = false)
      rw [hsent] at hsend
      rcases hsend with ⟨-, hpasses'⟩ | ⟨⟨t, ht⟩, -⟩
      · obtain ⟨lines, hends, hintake⟩ := ih hpasses'.steady hw
        exact ⟨lines, hends.after (hpasses.trans hpasses'), hintake⟩
      · cases ht
  | case4 now x l due now' l' heq =>
    cases Link.hears_of_hear h heq with
    | ended hnil => exact ⟨[], .ended (Link.Passes.refl h) hnil, rfl⟩
  | case5 now x l due t now' l' heq =>
    cases Link.hears_of_hear h heq
  | case6 now x l due text now' l' heq htext ih =>
    cases Link.hears_of_hear h heq with
    | @line line hpasses =>
      obtain ⟨lines, hends, hintake⟩ := ih hpasses.steady hw
      refine ⟨line :: lines, hends.after hpasses, ?_⟩
      rw [hintake, messagesOf_cons_none htext]
  | case7 now x l due text now' l' heq message htext x' hshut =>
    cases Link.hears_of_hear h heq with
    | line hpasses =>
      rw [hpasses.steady.inbox] at hshut
      cases hshut
  | case8 now x l due text now' l' heq message htext x' hshut ih =>
    cases Link.hears_of_hear h heq with
    | @line line hpasses =>
      obtain ⟨lines, hends, hintake⟩ := ih hpasses.steady hw
      refine ⟨line :: lines, hends.after hpasses, ?_⟩
      rw [hintake, messagesOf_cons_some htext, List.foldl_cons, ← hpasses.steady.inbox]

theorem handshake_unbroken (k : Credentials) :
    ∀ text ∈ handshake k, Line.breaks text = false := by
  intro text ht
  simp only [handshake, List.mem_cons, List.not_mem_nil, or_false] at ht
  rcases ht with rfl | rfl | rfl
  · exact login_unbroken k
  · exact use_unbroken k
  · decide

theorem foldl_early {σ : Type} (take : σ → Bool → String → σ) (x : σ) {n : Nat}
    {lines : List (List UInt8)} (h : lines.length ≤ n) :
    x = (messagesOf (lines.drop n)).foldl (fun x message => take x false message) x := by
  rw [List.drop_of_length_le h]
  rfl

/-- After the greeting three lines are read before the messages. -/
theorem registeredWith_ends {σ : Type} (take : σ → Bool → String → σ) (s : StreamSettings)
    (stopAt now : Nat) (x : σ) (h : l.Steady)
    (hw : ¬ (registeredWith take s stopAt now x l).link.Refused) :
    ∃ lines, l.Ends lines (registeredWith take s stopAt now x l).link
        (registeredWith take s stopAt now x l).result ∧
      (registeredWith take s stopAt now x l).intake =
        (messagesOf (lines.drop 3)).foldl (fun x message => take x false message) x := by
  have hregister := register_proceeds h stopAt now (handshake_unbroken s.credentials)
  unfold registeredWith at hw ⊢
  generalize register stopAt now l (handshake s.credentials) = known at *
  obtain ⟨result, now', l'⟩ := known
  rcases hregister with ⟨⟨f, hf⟩, href⟩ | hproceeds
  · simp only at hf
    subst hf
    exact absurd href hw
  · cases hproceeds with
    | ends hlen hends =>
      cases hends with
      | dropped hpasses hwait => exact ⟨_, .dropped hpasses hwait, foldl_early take x hlen⟩
      | ended hpasses hnil => exact ⟨_, .ended hpasses hnil, foldl_early take x hlen⟩
    | @done _ lines hres hlen hpasses =>
      simp only at hres hpasses
      subst hres
      simp only at hw ⊢
      have hready : l.Passes lines ((l'.publish .registered).publish .streaming) := by
        have hregistered := Link.note_passes hpasses.steady (.published .registered)
        have hstreaming := Link.note_passes hregistered.steady (.published .streaming)
        simpa [Link.publish] using hpasses.trans (hregistered.trans hstreaming)
      obtain ⟨rest, hends, hintake⟩ :=
        streamWith_ends take s.keepalive stopAt now' x hready.steady hw
      have hthree : lines.length = 3 := hlen
      refine ⟨lines ++ rest, hends.after hready, ?_⟩
      rw [hintake, ← hthree, List.drop_left]

/-- **What a whole session reads and takes in**: whatever is done with a message, it is done with the
messages after the fifth line. -/
theorem sessionWith_ends {σ : Type} (take : σ → Bool → String → σ) (s : StreamSettings)
    (stopAt now : Nat) (x : σ) (h : l.Steady)
    (hbanner : ∀ line, (Line.all l.octets).head? = some line →
      Text.trim (Line.textOf line).toList = Link.banner)
    (hw : ¬ (sessionWith take s stopAt now x l).link.Refused) :
    ∃ lines, l.Ends lines (sessionWith take s stopAt now x l).link
        (sessionWith take s stopAt now x l).result ∧
      (sessionWith take s stopAt now x l).intake =
        (messagesOf (lines.drop 5)).foldl (fun x message => take x false message) x := by
  have hstart : l.Passes [] (l.publish .handshaking) := Link.note_passes h _
  have hgreet := Link.greet_proceeds hstart.steady hbanner (some stopAt) now
  unfold sessionWith at hw ⊢
  generalize (l.publish .handshaking).greet (some stopAt) now = greeted at *
  obtain ⟨result, now', l'⟩ := greeted
  cases hgreet with
  | ends hlen hends =>
    have hlen' := Nat.le_trans hlen (by decide : 2 ≤ 5)
    cases hends with
    | dropped hpasses hwait =>
      exact ⟨_, .dropped (hstart.trans hpasses) hwait, foldl_early take x hlen'⟩
    | ended hpasses hnil =>
      exact ⟨_, .ended (hstart.trans hpasses) hnil, foldl_early take x hlen'⟩
  | @done _ opening hres hlen hpasses =>
    simp only at hres hpasses
    subst hres
    simp only at hw ⊢
    obtain ⟨lines, hends, hintake⟩ := registeredWith_ends take s stopAt now' x hpasses.steady hw
    refine ⟨opening ++ lines, hends.after (hstart.trans hpasses), ?_⟩
    have hdrop : (opening ++ lines).drop 5 = lines.drop 3 := by
      rw [List.drop_append, hlen, List.drop_of_length_le (by omega), List.nil_append]
    rw [hintake, hdrop]

end Sessions

section Law

variable {l l' : Link}

/-- The lines that were read are all lines of the stream, up to the end or up to the last delimiter
if the session was dropped before the end. -/
theorem lines_eq {lines : List (List UInt8)} {r : Option (Except Fault Unit)}
    (h : l.Ends lines l' r) (hd : r = none → scriptOctets l'.script = []) :
    lines = if r.isNone then Line.ended l.octets else Line.all l.octets := by
  cases h with
  | dropped hpasses hwait =>
    have hnone : Line.cut l'.octets = none := by
      rw [Link.octets, hd rfl, List.append_nil]
      exact hwait.2
    rw [Option.isNone_none, if_pos rfl, (hpasses.ended_eq hwait.1).2, Line.ended_cut_none hnone,
      List.append_nil]
  | ended hpasses hnil =>
    rw [Option.isNone_some, if_neg Bool.false_ne_true, hpasses.all_eq, hnil, Line.all_nil,
      List.append_nil]

theorem steady_ofPeer {p : Peer} (hp : p.Undisturbed) : (Link.ofPeer p).Steady where
  calm := hp.calm
  fit := ⟨rfl, Or.inl ⟨rfl, rfl⟩⟩
  short := hp.short
  inbox := rfl
  drained h := by cases h

/-- What taking several messages in comes to while the hub takes them. -/
theorem foldl_take (ms : List String) (x : Relay) :
    ms.foldl (fun x message => x.take false message) x =
      ⟨⟨ms.reverse ++ x.intake.read, ms.reverse ++ x.intake.taken⟩,
        x.chatLog.map fun c => ms.foldl ChatLog.enter c⟩ := by
  induction ms generalizing x with
  | nil => simp
  | cons m ms ih =>
    rw [List.foldl_cons, ih]
    simp [Relay.take, Intake.take, Function.comp_def]

/-- A journal that nobody else writes to gets the records of the messages for which writing works, in
the order of the messages. -/
theorem foldl_enter (ms : List String) (c : ChatLog) (hwaiting : c.writer.waiting = [])
    (hholder : c.writer.holder = none) :
    (ms.foldl ChatLog.enter c).writer.content =
      c.writer.content ++ (ms.zipIdx c.tried).flatMap fun x =>
        if c.works x.2 then (Journal.Call.message (c.stamp x.2) x.1).record else [] := by
  induction ms generalizing c with
  | nil => simp
  | cons m ms ih =>
    rw [List.foldl_cons, List.zipIdx_cons, List.flatMap_cons, ← List.append_assoc]
    by_cases hworks : c.works c.tried = true
    · have hidle : (c.enter m).writer.waiting = [] ∧ (c.enter m).writer.holder = none := by
        simp [ChatLog.enter, hworks, Journal.Writer.append, Journal.Writer.run,
          Journal.Writer.step, hwaiting, hholder]
      have hcontent : (c.enter m).writer.content =
          c.writer.content ++ (Journal.Call.message (c.stamp c.tried) m).record := by
        simp only [ChatLog.enter, hworks, if_true]
        exact Journal.append_content c.writer _ hwaiting hholder
      rw [ih _ hidle.1 hidle.2, hcontent]
      simp [ChatLog.enter, hworks]
    · have hwriter : (c.enter m).writer = c.writer := by
        simp [ChatLog.enter, hworks]
      rw [ih _ (by rw [hwriter]; exact hwaiting) (by rw [hwriter]; exact hholder), hwriter]
      simp [ChatLog.enter, hworks]

/-- The messages that a session has relayed. -/
theorem relay_messages {p : Peer} (hp : p.Undisturbed) (s : StreamSettings) (stopAt start : Nat)
    (chatLog : Option ChatLog) (hw : ¬ (relay s stopAt start chatLog p).link.Refused)
    (hd : (relay s stopAt start chatLog p).result = none →
      scriptOctets (relay s stopAt start chatLog p).link.script = []) :
    (relay s stopAt start chatLog p).intake =
      (p.messages (relay s stopAt start chatLog p).result.isNone).foldl
        (fun x message => x.take false message) ⟨⟨[], []⟩, chatLog⟩ := by
  obtain ⟨lines, hends, hintake⟩ := sessionWith_ends Relay.take s stopAt start
    ⟨⟨[], []⟩, chatLog⟩ (steady_ofPeer hp) hp.banner hw
  have hlines := lines_eq hends hd
  unfold relay Peer.messages
  rw [hintake, hlines]
  rfl

/-- **Server chat is relayed whole, in order and once**, whatever the pieces of the stream, the pauses
and the keepalives. If no write is refused, and the session is dropped, if at all, after everything
was delivered: the messages passed to the hub are those in the lines of the stream as a whole; their
number is counted; the journal gets the records of those for which writing works, and the messages do
not depend on that. Any two such sessions with the same octets relay the same messages. -/
theorem relay_exact {p : Peer} (hp : p.Undisturbed) (s : StreamSettings) (stopAt start : Nat)
    (chatLog : Option ChatLog) (hw : ¬ (relay s stopAt start chatLog p).link.Refused)
    (hd : (relay s stopAt start chatLog p).result = none →
      scriptOctets (relay s stopAt start chatLog p).link.script = []) :
    let out := relay s stopAt start chatLog p
    let ms := p.messages out.result.isNone
    out.intake.intake.taken.reverse = ms ∧ out.intake.intake.read.length = ms.length ∧
      (∀ c, chatLog = some c → c.writer.waiting = [] → c.writer.holder = none →
        ∃ c', out.intake.chatLog = some c' ∧ c'.writer.content =
          c.writer.content ++ (ms.zipIdx c.tried).flatMap fun x =>
            if c.works x.2 then (Journal.Call.message (c.stamp x.2) x.1).record else []) ∧
      ∀ (q : Peer) (s' : StreamSettings) (stopAt' start' : Nat) (chatLog' : Option ChatLog),
        let out' := relay s' stopAt' start' chatLog' q
        q.Undisturbed → scriptOctets q.script = scriptOctets p.script →
          (out'.result = none ↔ out.result = none) → ¬ out'.link.Refused →
          (out'.result = none → scriptOctets out'.link.script = []) →
            out'.intake.intake = out.intake.intake := by
  intro out ms
  have hintake : out.intake =
      ms.foldl (fun x message => x.take false message) ⟨⟨[], []⟩, chatLog⟩ :=
    relay_messages hp s stopAt start chatLog hw hd
  rw [foldl_take] at hintake
  refine ⟨?_, ?_, ?_, ?_⟩
  · rw [hintake]
    simp
  · rw [hintake]
    simp
  · intro c hc hwaiting hholder
    refine ⟨ms.foldl ChatLog.enter c, ?_, foldl_enter ms c hwaiting hholder⟩
    rw [hintake, hc]
    rfl
  · intro q s' stopAt' start' chatLog' out' hq hoctets hnone hw' hd'
    have hintake' : out'.intake = (q.messages out'.result.isNone).foldl
        (fun x message => x.take false message) ⟨⟨[], []⟩, chatLog'⟩ :=
      relay_messages hq s' stopAt' start' chatLog' hw' hd'
    have hisNone : out'.result.isNone = out.result.isNone := by
      rw [Bool.eq_iff_iff, Option.isNone_iff_eq_none, Option.isNone_iff_eq_none]
      exact hnone
    have hms : q.messages out'.result.isNone = ms := by
      rw [hisNone]
      unfold Peer.messages
      rw [hoctets]
      rfl
    rw [foldl_take, hms] at hintake'
    rw [hintake', hintake]

/-- A notice that arrives in two pieces, cut inside a letter, with keepalives in between. -/
theorem relay_exact_two_pieces :
    let before := Utf8.encode "TS3\n\rHi\n\rok\n\rok\n\rok\n\rmsg=gr".toList ++ [0xC3]
    let after := [0xBC] ++ Utf8.encode "n invokerid=5\n\r".toList
    let p : Peer := ⟨[.data before, .silence 2500, .data after, .finish], none⟩
    let s : StreamSettings := ⟨⟨"bot", "secret", "voice", 10011, 1⟩, 1000, 1, 10000⟩
    let out := relay s 60000 0 none p
    p.Undisturbed ∧ out.result = some (.error .closed) ∧ out.link.writes = 5 ∧
      out.intake.intake.taken.reverse = ["gr\u00fcn "] := by
  intro before after p s
  have hbanner : (Line.all (scriptOctets p.script)).head?.map
      (fun line => Text.trim (Line.textOf line).toList) = some Link.banner := by decide +kernel
  have hp : p.Undisturbed := by
    refine ⟨?_, ?_, ?_⟩
    · simp [p, Step.Calm]
    · unfold Line.Short
      decide +kernel
    · intro line hline
      rw [hline] at hbanner
      exact Option.some.inj hbanner
  have hms : p.messages false = ["gr\u00fcn "] := by decide +kernel
  have hout : (relay s 60000 0 none p).result = some (.error .closed) ∧
      (relay s 60000 0 none p).link.writes = 5 ∧
      (relay s 60000 0 none p).link.accepted = none := by decide +kernel
  have hexact := relay_exact hp s 60000 0 none
  generalize relay s 60000 0 none p = out at *
  obtain ⟨hresult, hwrites, haccepted⟩ := hout
  have hw : ¬ out.link.Refused := by
    rintro ⟨k, hk, -⟩
    rw [haccepted] at hk
    cases hk
  have hd : out.result = none → scriptOctets out.link.script = [] := by
    intro hnone
    rw [hresult] at hnone
    cases hnone
  have htaken := (hexact hw hd).1
  rw [hresult, Option.isNone_some, hms] at htaken
  exact ⟨hp, hresult, hwrites, htaken⟩

end Law

end EventStream

end VoiceRelay
