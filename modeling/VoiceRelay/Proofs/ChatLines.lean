import VoiceRelay.Proofs.SharedConnection
import Mathlib.Algebra.GroupWithZero.Nat

/-!
# Chat lines on the wire

Of all commands only a chat message begins with the letters of a chat command. Signing in, saying
goodbye and every other request write none, and a request to say something writes at most one, on the
connection in the slot or on a fresh one; it was written if the request was answered. A text of blanks
alone needs no command and touches nothing.

**Design.** `Client.chats` counts the chat lines on all sessions, those given up included. A `ChatTally`
is any such number that grows with the exchanges about chat and with nothing else; what a call does to it
is proved once for all of them. `Client.Spends` compares a client before and after a call: how many streams
the call tried to open, and how many chat lines it wrote.

**Results.**

- `command_eq_none_iff`: a text needs no command if and only if it has no word.
- `perform_tallies`: what the call of a command adds to a tally.
- `serve_spends`: what a served request writes and opens.
- `serve_said`: a chat message that was answered, its line and the status line that answered it.
-/

namespace VoiceRelay

section Defs

/-- How a chat command begins on the wire. -/
def chatLead : List UInt8 := Utf8.encode "gm ".toList

/-- Whether a command is a chat command. -/
def isChat (command : String) : Bool := chatLead.isPrefixOf (Line.written command)

/-- Whether a chat line was written. -/
def Event.isChat : Event → Bool
  | .sent octets => chatLead.isPrefixOf octets
  | .heard _ => false

/-- How many chat lines were written on all connections. -/
def Client.chats (c : Client) : Nat := (c.links.flatMap Link.transcript).countP Event.isChat

/-- How many chat lines the command of a request is. -/
def Request.chats (r : Request) : Nat :=
  match r.command with
  | some command => if isChat command then 1 else 0
  | none => 0

/-- A number about chat that can be told from what was said on a connection: the lines of a greeting add
nothing to it, and an exchange adds what it is worth, whatever was said before; that is nothing unless its
command is a chat command. -/
structure ChatTally where
  count : List Event → Nat
  worth : Exchange → Nat
  count_greeting (lines : List String) : count (lines.map .heard) = 0
  count_exchange (before : List Event) (x : Exchange) :
    count (before ++ x.events) = count before + worth x
  worth_quiet (x : Exchange) : isChat x.command = false → worth x = 0

namespace ChatTally

/-- The number for a connection. -/
def ofLink (t : ChatTally) (l : Link) : Nat := t.count l.transcript

/-- The number for all connections of a client, those given up included. -/
def total (t : ChatTally) (c : Client) : Nat := (c.links.map t.ofLink).sum

/-- What the call of a command adds: nothing if there was no exchange of it, else what that is worth. -/
inductive Adds (t : ChatTally) (text : String) (result : Option (Except Fault (List Record))) :
    Nat → Prop
  | nothing : (∀ records, result ≠ some (.ok records)) → Adds t text result 0
  | exchange {x : Exchange} : x.command = text → x.Gives result → Adds t text result (t.worth x)

end ChatTally

/-- A call tried to open at most one stream and wrote `n` chat lines. -/
structure Client.Spends (before after : Client) (n : Nat) : Prop where
  dialled_le : before.dialled ≤ after.dialled
  dialled_once : after.dialled ≤ before.dialled + 1
  chats_eq : after.chats = before.chats + n

end Defs

section Words

/-- A text of blanks alone has no word, and no other text. -/
theorem words_eq_nil_iff (cs : List Char) :
    Text.words cs = [] ↔ ∀ ch ∈ cs, Text.isBlank ch = true := by
  unfold Text.words
  induction cs with
  | nil => simp [Text.pieces_nil]
  | cons ch cs ih =>
    rw [Text.pieces_cons]
    by_cases hb : Text.isBlank ch = true
    · simpa [hb] using ih
    · rcases Text.pieces Text.isBlank cs with _ | ⟨p, ps⟩ <;> simp [hb, Text.extendFirst]

theorem command_eq_none_iff (text : String) :
    (Request.say text).command = none ↔ ∀ ch ∈ text.toList, Text.isBlank ch = true := by
  rw [← words_eq_nil_iff]
  unfold Request.command Escape.encodeWords
  rw [Option.map_eq_none_iff]
  rcases Text.words text.toList with _ | ⟨w, ws⟩ <;> simp

theorem say_command {text : String} (h : ∃ ch ∈ text.toList, Text.isBlank ch = false) :
    ∃ w, Escape.encodeWords text = some w ∧ (Request.say text).command = some ("gm msg=" ++ w) := by
  rcases hw : Escape.encodeWords text with _ | w
  · obtain ⟨ch, hch, hb⟩ := h
    have hnone : (Request.say text).command = none := by simp [Request.command, hw]
    rw [(command_eq_none_iff text).1 hnone ch hch] at hb
    cases hb
  · exact ⟨w, rfl, by simp [Request.command, hw]⟩

end Words

section Leads

theorem isChat_say (w : String) : isChat ("gm msg=" ++ w) = true := by
  simp [isChat, chatLead, Line.written, Utf8.encode, String.toList_append]

/-- A command that begins with another letter is no chat command. -/
theorem isChat_of_head {command : String} {octet : UInt8} {rest : List UInt8}
    (h : Line.written command = octet :: rest) (ho : octet ≠ 103) : isChat command = false := by
  have hlead : chatLead = [103, 109, 32] := by decide
  rw [isChat, h, hlead, List.isPrefixOf_cons_cons]
  simp [Ne.symm ho]

theorem isChat_login (k : Credentials) : isChat k.login = false := by
  have hl : String.utf8EncodeChar 'l' = [108] := by decide
  have hwritten : ∃ rest, Line.written k.login = 108 :: rest := by
    simp [Line.written, Utf8.encode, Credentials.login, String.toList_append, hl]
  obtain ⟨rest, h⟩ := hwritten
  exact isChat_of_head h (by decide)

theorem isChat_use (k : Credentials) : isChat k.use = false := by
  have hu : String.utf8EncodeChar 'u' = [117] := by decide
  have hwritten : ∃ rest, Line.written k.use = 117 :: rest := by
    simp [Line.written, Utf8.encode, Credentials.use, String.toList_append, hu]
  obtain ⟨rest, h⟩ := hwritten
  exact isChat_of_head h (by decide)

theorem isChat_quit : isChat "quit" = false := by decide

/-- A request to say something needs a chat command, no other request does. -/
theorem chats_of_command {r : Request} {command : String} (h : r.command = some command) :
    r.chats = if isChat command then 1 else 0 := by
  simp [Request.chats, h]

theorem chats_say {text w : String} (h : Escape.encodeWords text = some w) :
    (Request.say text).chats = 1 := by
  rw [chats_of_command (by simp [Request.command, h]; rfl), isChat_say]
  rfl

theorem chats_eq_zero {r : Request} (h : ∀ text, r ≠ .say text) : r.chats = 0 := by
  cases r with
  | say text => exact absurd rfl (h text)
  | occupants | channels | ping | quit => decide

theorem chats_le_one (r : Request) : r.chats ≤ 1 := by
  unfold Request.chats
  split
  · split <;> decide
  · decide

end Leads

namespace Link

section Counting

theorem countP_heard (lines : List String) :
    (lines.map Event.heard).countP Event.isChat = 0 := by
  induction lines with
  | nil => rfl
  | cons line lines ih =>
    rw [List.map_cons, List.countP_cons, ih]
    rfl

theorem countP_exchange (x : Exchange) :
    x.events.countP Event.isChat = if isChat x.command then 1 else 0 := by
  have hsent : (Event.sent (Line.written x.command)).isChat = isChat x.command := rfl
  rw [Exchange.events, List.countP_cons, countP_heard, hsent, Nat.zero_add]

end Counting

end Link

namespace ChatTally

section Totals

variable {t : ChatTally} {c : Client} {l : Link}

theorem total_giveUp (t : ChatTally) (c : Client) (l : Link) :
    t.total (c.giveUp l) = t.total c + t.ofLink l := by
  simp only [total, Client.links, Client.giveUp, List.reverse_cons, List.map_append, List.sum_append,
    List.map_cons, List.map_nil, List.sum_cons, List.sum_nil]
  omega

theorem total_keep (t : ChatTally) (c : Client) (l : Link) (h : c.slot = none) :
    t.total { c with slot := some l } = t.total c + t.ofLink l := by
  simp [total, Client.links, h]

theorem total_take (t : ChatTally) (h : c.slot = some l) :
    t.total c = t.total { c with slot := none } + t.ofLink l := by
  rw [← total_keep t { c with slot := none } l rfl, ← h]

theorem Adds.quiet {text : String} {result : Option (Except Fault (List Record))} {n : Nat}
    (h : t.Adds text result n) (hquiet : isChat text = false) : n = 0 := by
  cases h with
  | nothing => rfl
  | exchange hx => exact t.worth_quiet _ (hx ▸ hquiet)

end Totals

section Calls

variable {c : Client} {l : Link}

theorem command_tallies (t : ChatTally) (l : Link) (timeLimit : Nat) (patience : Deadline)
    (now : Nat) (text : String) :
    let turn := l.command timeLimit patience now text
    ∃ n, t.ofLink turn.link = t.ofLink l + n ∧ t.Adds text turn.result n := by
  intro turn
  rcases l.command_gives timeLimit patience now text with ⟨trouble, hr, hc⟩ | ⟨x, hx, _, hc, hgives⟩
  · refine ⟨0, ?_, .nothing fun records h => by rw [hr] at h; cases h⟩
    rw [ofLink, hc.transcript_eq, List.append_nil]
    rfl
  · refine ⟨t.worth x, ?_, .exchange hx hgives⟩
    rw [ofLink, hc.transcript_eq, t.count_exchange]
    rfl

theorem command_quiet (t : ChatTally) (l : Link) (timeLimit : Nat) (patience : Deadline) (now : Nat)
    {text : String} (h : isChat text = false) :
    t.ofLink (l.command timeLimit patience now text).link = t.ofLink l := by
  obtain ⟨n, hn, hadds⟩ := t.command_tallies l timeLimit patience now text
  rw [hn, hadds.quiet h, Nat.add_zero]

theorem greet_quiet (t : ChatTally) (patience : Deadline) (now : Nat) (h : l.transcript = []) :
    t.ofLink (l.greet patience now).link = 0 := by
  obtain ⟨opening, _, hc⟩ := l.greet_continues patience now
  rw [ofLink, hc.transcript_eq, h, List.nil_append, t.count_greeting]

/-- A line to which no answer is read is an exchange without lines. -/
theorem writeLine_quiet (t : ChatTally) (l : Link) (now : Nat) {text : String}
    (h : isChat text = false) : t.ofLink (l.writeLine now text).link = t.ofLink l := by
  have hsend := l.send_continues now text
  unfold Link.writeLine
  rcases hs : l.send now text with ⟨trouble?, l₁⟩
  rw [hs] at hsend
  rcases hsend with ⟨trouble, rfl, hc⟩ | ⟨rfl, _, hc⟩
  · simp only [ofLink, hc.transcript_eq, List.append_nil]
  · have hadded := t.count_exchange l.transcript ⟨text, []⟩
    rw [t.worth_quiet ⟨text, []⟩ h, Nat.add_zero] at hadded
    simp only [ofLink, hc.transcript_eq]
    exact hadded

/-- Opening a stream is one attempt, and nothing was said on the stream. -/
theorem dial_tallies (t : ChatTally) (c : Client) :
    c.dial.2.dialled = c.dialled + 1 ∧ c.dial.2.slot = c.slot ∧ t.total c.dial.2 = t.total c ∧
      ∀ l, c.dial.1 = .ok l → l.transcript = [] := by
  unfold Client.dial
  split
  · exact ⟨rfl, rfl, rfl, fun l h => by cases h⟩
  · exact ⟨rfl, rfl, rfl, fun l h => by cases h⟩
  · refine ⟨rfl, rfl, rfl, fun l h => ?_⟩
    cases h
    rfl

/-- Signing in is one attempt to open a stream and adds nothing. -/
theorem signIn_tallies (t : ChatTally) (c : Client) (patience : Deadline) (now : Nat) :
    (c.signIn patience now).2.2.dialled = c.dialled + 1 ∧
      (c.signIn patience now).2.2.slot = c.slot ∧
      t.total (c.signIn patience now).2.2 = t.total c ∧
      ∀ l, (c.signIn patience now).1 = some (.ok l) → t.ofLink l = 0 := by
  obtain ⟨hdialled, hslot, htotal, hfresh⟩ := t.dial_tallies c
  unfold Client.signIn
  rcases hd : c.dial with ⟨f | l, c₁⟩
  all_goals
    rw [hd] at hdialled hslot htotal hfresh
    simp only at hdialled hslot htotal hfresh ⊢
  · exact ⟨hdialled, hslot, htotal, fun l h => by cases h⟩
  · -- Every way out of the handshake gives the stream up with nothing about chat on it.
    have hgiven : ∀ l' : Link, t.ofLink l' = 0 → ∀ r : Option (Except Fault Link),
        (∀ l, r ≠ some (.ok l)) → (c₁.giveUp l').dialled = c.dialled + 1 ∧
          (c₁.giveUp l').slot = c.slot ∧ t.total (c₁.giveUp l') = t.total c ∧
            ∀ l, r = some (.ok l) → t.ofLink l = 0 := by
      intro l' hl' r hr
      exact ⟨hdialled, hslot, by rw [total_giveUp, htotal, hl', Nat.add_zero],
        fun l h => absurd h (hr l)⟩
    have hgreet := t.greet_quiet patience now (hfresh l rfl)
    generalize l.greet patience now = greeted at *
    rcases hres : greeted.result with _ | f | ⟨⟩
    all_goals simp only
    · exact hgiven _ hgreet _ (by simp)
    · exact hgiven _ hgreet _ (by simp)
    · have hlogin := t.command_quiet greeted.link Link.defaultTimeLimit patience greeted.now
        (isChat_login c₁.credentials)
      rw [hgreet] at hlogin
      generalize greeted.link.command Link.defaultTimeLimit patience greeted.now
        c₁.credentials.login = known at *
      rcases hres : known.result with _ | f | records
      all_goals simp only
      · exact hgiven _ hlogin _ (by simp)
      · exact hgiven _ hlogin _ (by simp)
      · have huse := t.command_quiet known.link Link.defaultTimeLimit patience known.now
          (isChat_use c₁.credentials)
        rw [hlogin] at huse
        generalize known.link.command Link.defaultTimeLimit patience known.now
          c₁.credentials.use = ready at *
        rcases hres : ready.result with _ | f | records
        all_goals simp only
        · exact hgiven _ huse _ (by simp)
        · exact hgiven _ huse _ (by simp)
        · exact ⟨hdialled, hslot, htotal, fun l h => by cases h; exact huse⟩

theorem connect_tallies (t : ChatTally) (c : Client) (h : c.slot = none) (patience : Deadline)
    (now : Nat) : (c.connect patience now).client.dialled = c.dialled + 1 ∧
      t.total (c.connect patience now).client = t.total c := by
  obtain ⟨hdialled, hslot, htotal, hfresh⟩ := t.signIn_tallies c patience now
  unfold Client.connect
  rcases hs : c.signIn patience now with ⟨_ | f | l, now', c'⟩
  all_goals
    rw [hs] at hdialled hslot htotal hfresh
    simp only at hdialled hslot htotal hfresh ⊢
  · exact ⟨hdialled, htotal⟩
  · exact ⟨hdialled, htotal⟩
  · refine ⟨hdialled, ?_⟩
    rw [t.total_keep c' l (hslot.trans h), htotal, hfresh l rfl, Nat.add_zero]

/-- Running a command on a connection that was taken out of the slot. -/
theorem runOn_tallies (t : ChatTally) (c : Client) (l : Link) (h : c.slot = none)
    (patience : Deadline) (now : Nat) (text : String) :
    let call := c.runOn l patience now text
    call.client.dialled = c.dialled ∧
      ∃ n, t.total call.client = t.total c + t.ofLink l + n ∧ t.Adds text call.result n := by
  obtain ⟨n, hlink, hadds⟩ := t.command_tallies l Link.defaultTimeLimit patience now text
  have hgiven : ∀ l' : Link, t.ofLink l' = t.ofLink l + n →
      t.total (c.giveUp l') = t.total c + t.ofLink l + n := fun l' hl' => by
    rw [total_giveUp, hl', Nat.add_assoc]
  have hkept : ∀ l' : Link, t.ofLink l' = t.ofLink l + n →
      t.total { c with slot := some l' } = t.total c + t.ofLink l + n := fun l' hl' => by
    rw [t.total_keep c l' h, hl', Nat.add_assoc]
  unfold Client.runOn
  simp only
  generalize l.command Link.defaultTimeLimit patience now text = turn at *
  rcases hres : turn.result with _ | f | records
  all_goals
    rw [hres] at hadds
    simp only
  · exact ⟨rfl, n, hgiven _ hlink, hadds⟩
  · split
    · exact ⟨rfl, n, hgiven _ hlink, hadds⟩
    · exact ⟨rfl, n, hkept _ hlink, hadds⟩
  · exact ⟨trivial, n, hkept _ hlink, hadds⟩

/-- **What the call of a command adds** to a tally; it is at most one attempt to open a stream. -/
theorem perform_tallies (t : ChatTally) (c : Client) (patience : Deadline) (now : Nat)
    (text : String) :
    let call := c.perform patience now text
    c.dialled ≤ call.client.dialled ∧ call.client.dialled ≤ c.dialled + 1 ∧
      ∃ n, t.total call.client = t.total c + n ∧ t.Adds text call.result n := by
  unfold Client.perform
  rcases hslot : c.slot with _ | l
  all_goals simp only
  · obtain ⟨hdialled, hslot', htotal, hfresh⟩ := t.signIn_tallies c patience now
    rcases hs : c.signIn patience now with ⟨_ | f | l, now', c'⟩
    all_goals
      rw [hs] at hdialled hslot' htotal hfresh
      simp only at hdialled hslot' htotal hfresh ⊢
    · exact ⟨by omega, by omega, 0, htotal, .nothing (by simp)⟩
    · exact ⟨by omega, by omega, 0, htotal, .nothing (by simp)⟩
    · obtain ⟨hrun, n, hn, hadds⟩ :=
        t.runOn_tallies c' l (hslot'.trans hslot) patience now' text
      rw [htotal, hfresh l rfl, Nat.add_zero] at hn
      exact ⟨by omega, by omega, n, hn, hadds⟩
  · obtain ⟨hrun, n, hn, hadds⟩ :=
      t.runOn_tallies { c with slot := none } l rfl patience now text
    rw [← t.total_take hslot] at hn
    simp only at hrun
    exact ⟨by omega, by omega, n, hn, hadds⟩

theorem leave_tallies (t : ChatTally) (c : Client) (now : Nat) :
    (c.leave now).client.dialled = c.dialled ∧ t.total (c.leave now).client = t.total c := by
  unfold Client.leave
  rcases hslot : c.slot with _ | l
  all_goals simp only
  · exact ⟨trivial, trivial⟩
  · refine ⟨rfl, ?_⟩
    rw [total_giveUp, t.writeLine_quiet l now isChat_quit, ← t.total_take hslot]

end Calls

end ChatTally

/-- The number of chat lines. -/
def chatLines : ChatTally where
  count events := events.countP Event.isChat
  worth x := if isChat x.command then 1 else 0
  count_greeting := Link.countP_heard
  count_exchange before x := by rw [List.countP_append, Link.countP_exchange]
  worth_quiet x h := by rw [h]; rfl

namespace Client

section Spending

variable {c : Client}

theorem chats_eq_total (c : Client) : c.chats = chatLines.total c := by
  rw [chats, List.countP_flatMap]
  rfl

theorem connect_chats (c : Client) (h : c.slot = none) (patience : Deadline) (now : Nat) :
    (c.connect patience now).client.dialled = c.dialled + 1 ∧
      (c.connect patience now).client.chats = c.chats := by
  rw [chats_eq_total, chats_eq_total]
  exact chatLines.connect_tallies c h patience now

/-- Running a command is at most one attempt to open a stream, and writes at most its own line. -/
theorem perform_spends (c : Client) (patience : Deadline) (now : Nat) (text : String) :
    ∃ n ≤ if isChat text then 1 else 0, c.Spends (c.perform patience now text).client n ∧
      ∀ records, (c.perform patience now text).result = some (.ok records) →
        n = if isChat text then 1 else 0 := by
  obtain ⟨hle, honce, n, hn, hadds⟩ := chatLines.perform_tallies c patience now text
  refine ⟨n, ?_, ⟨hle, honce, by rw [chats_eq_total, chats_eq_total, hn]⟩, fun records hok => ?_⟩
  all_goals cases hadds with
  | nothing hnone => ?_
  | @exchange x hx => ?_
  · exact Nat.zero_le _
  · exact hx ▸ Nat.le_refl _
  · exact absurd hok (hnone records)
  · exact hx ▸ rfl

theorem leave_spends (c : Client) (now : Nat) : c.Spends (c.leave now).client 0 := by
  obtain ⟨hdialled, htotal⟩ := chatLines.leave_tallies c now
  refine ⟨Nat.le_of_eq hdialled.symm, by omega, ?_⟩
  rw [chats_eq_total, chats_eq_total, htotal, Nat.add_zero]

/-- **What a served request spends.** It tries to open at most one stream and writes at most one chat
line, none if it is not a request to say something, and exactly its own if it is answered. -/
theorem serve_spends (c : Client) (patience : Deadline) (now : Nat) (r : Request) :
    ∃ n ≤ r.chats, c.Spends (c.serve patience now r).client n ∧
      ∀ answer, (c.serve patience now r).result = some (.ok answer) → n = r.chats := by
  by_cases hr : r = .quit
  · subst hr
    exact ⟨0, Nat.zero_le _, c.leave_spends now, fun _ _ => by decide⟩
  · rcases hc : r.command with _ | text
    · have hzero : r.chats = 0 := by simp [Request.chats, hc]
      rw [serve_of_command_none hc, hzero]
      exact ⟨0, Nat.le_refl 0, ⟨Nat.le_refl _, Nat.le_succ _, rfl⟩, fun _ _ => rfl⟩
    · obtain ⟨n, hn, hspends, hok⟩ := c.perform_spends patience now text
      rw [serve_of_command hc hr, chats_of_command hc]
      refine ⟨n, hn, hspends, fun answer h => ?_⟩
      rcases hres : (c.perform patience now text).result with _ | f | records
      · simp [hres] at h
      · simp [hres, Except.bind] at h
      · exact hok records hres

/-- **A chat message that was answered** was written on the connection that is in the slot now, after
all that was said there before, and a status line with the number 0 is the last line read after it. -/
theorem serve_said {k : Credentials} {dials : List Dial} (h : c.Sound k dials) (patience : Deadline)
    (now : Nat) {text w : String} (hw : Escape.encodeWords text = some w) {answer : Answer}
    (hr : (c.serve patience now (.say text)).result = some (.ok answer)) :
    ∃ (l : Link) (start : List Event) (x : Exchange) (s : Status), c.Start k start ∧
      (c.serve patience now (.say text)).client.slot = some l ∧
      l.transcript = start ++ x.events ∧ x.command = "gm msg=" ++ w ∧ x.Closed s ∧ s.id = 0 := by
  have hcommand : (Request.say text).command = some ("gm msg=" ++ w) := by
    simp [Request.command, hw]
  obtain ⟨learnt, hlearnt, hlearns⟩ := serve_learns h patience now hcommand (by simp)
  rw [hr] at hlearnt
  cases hlearns with
  | @records l start x s hstart hslot htr hx hs hok =>
    exact ⟨l, start, x, s, hstart, hslot, htr, hx, hs, by simpa [Status.isOk] using hok⟩
  | refusal | fault | unopened => simp [Except.bind] at hlearnt
  | nothing => simp at hlearnt

end Spending

end Client

end VoiceRelay
