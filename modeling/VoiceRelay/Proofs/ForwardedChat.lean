import VoiceRelay.Proofs.BrowserConnection
import VoiceRelay.Proofs.ChatLines

/-!
# What the counter of forwarded chat counts

The endpoint counts a chat message as forwarded when the shared connection answers that it was sent. For a
message with a word this means that its command was written on some session and acknowledged there by a
status line with the number 0. A message of blanks alone needs no command: nothing is written for it, the
answer is the same, and it is counted.

**Design.** `confirmations` reads a transcript event by event and remembers whether a chat command waits
for its status line; on all sessions together it is a `ChatTally`. `Endpoint.handle` takes text frames one
after the other, also those that come after one that ended its connection, as frames of another browser do.

**Results.**

- `say_confirms`: what the shared connection answers to a text, and what that is worth.
- `handle_forwards`: what some frames add to the counter, from any moment on.
- `forwarded_unless_wordless`: the counter from the start; `blank_message_counted` shows that the
  messages without a word have to be added.
-/

namespace VoiceRelay

section Defs

/-- How many chat commands of a transcript were answered by a status line with the number 0. The flag tells
that a chat command was sent and no status line was read after it. -/
def confirmations : Bool → List Event → Nat
  | _, [] => 0
  | _, .sent octets :: events => confirmations (chatLead.isPrefixOf octets) events
  | waits, .heard line :: events =>
    match Status.parse? line with
    | none => confirmations waits events
    | some s => (if waits && s.isOk then 1 else 0) + confirmations false events

/-- How many chat commands were written and acknowledged on all sessions. -/
def Client.confirmed (c : Client) : Nat :=
  (c.links.map fun l => confirmations false l.transcript).sum

/-- Whether a call has come to a result that is no fault. -/
def answered {α : Type} : Option (Except Fault α) → Bool
  | some (.ok _) => true
  | _ => false

/-- Whether a text has no word. -/
def wordless (text : String) : Bool := text.toList.all Text.isBlank

/-- Whether a text frame is a chat message without a word. -/
def Frame.wordless (f : Frame) : Bool := f.chat?.any fun m => VoiceRelay.wordless m.message

namespace Endpoint

/-- Handles text frames one after the other, each some time after the one before was handled; `none` if the
answer to one of them never comes. -/
def handle (e : Endpoint (Nat × Client)) (x : EndpointLog (Nat × Client)) :
    List (Nat × String) → Option (EndpointLog (Nat × Client))
  | [] => some x
  | (pause, text) :: frames =>
    match e.frame { x with backend := (x.backend.1 + pause, x.backend.2) } text with
    | none => none
    | some (_, x) => e.handle x frames

/-- The endpoint when the first connection to the query interface was tried. -/
def opening (k : Credentials) (dials : List Dial) (exhausted : Fault) :
    EndpointLog (Nat × Client) :=
  let call := (Client.fresh k dials exhausted).connect none 0
  ⟨(call.now, call.client), [], [], 0⟩

end Endpoint

end Defs

section Confirmations

/-- An exchange begins with a command, so what was said before it does not matter for it. -/
theorem confirmations_exchange (waits : Bool) (before : List Event) (x : Exchange) :
    confirmations waits (before ++ x.events) =
      confirmations waits before + confirmations false x.events := by
  induction before generalizing waits with
  | nil => exact (Nat.zero_add _).symm
  | cons event before ih =>
    cases event with
    | sent octets => exact ih _
    | heard line =>
      rw [List.cons_append, confirmations, confirmations]
      split
      · exact ih waits
      · rw [ih, Nat.add_assoc]

theorem confirmations_open {lines : List String} (h : ∀ line ∈ lines, Status.parse? line = none)
    (waits : Bool) (rest : List Event) :
    confirmations waits (lines.map .heard ++ rest) = confirmations waits rest := by
  induction lines with
  | nil => rfl
  | cons line lines ih =>
    rw [List.map_cons, List.cons_append, confirmations, h line List.mem_cons_self]
    exact ih fun line hline => h line (List.mem_cons_of_mem _ hline)

/-- Lines that answer no chat command confirm nothing. -/
theorem confirmations_greeting (lines : List String) :
    confirmations false (lines.map .heard) = 0 := by
  induction lines with
  | nil => rfl
  | cons line lines ih =>
    rw [List.map_cons, confirmations]
    split
    · exact ih
    · rw [ih]
      rfl

theorem confirmations_events (x : Exchange) :
    confirmations false x.events = confirmations (isChat x.command) (x.lines.map .heard) := rfl

/-- **The confirmed chat commands** are a tally. -/
def confirmedChat : ChatTally where
  count := confirmations false
  worth x := confirmations false x.events
  count_greeting := confirmations_greeting
  count_exchange := confirmations_exchange false
  worth_quiet x h := by rw [confirmations_events, h, confirmations_greeting]

/-- The exchange of a chat command confirms it exactly if the call of the command is answered. -/
theorem worth_of_gives {x : Exchange} {result : Option (Except Fault (List Record))}
    (hchat : isChat x.command = true) (h : x.Gives result) :
    confirmedChat.worth x = if answered result then 1 else 0 := by
  change confirmations (isChat x.command) (x.lines.map .heard) = _
  rw [hchat]
  have hclosed {s : Status} (hs : x.Closed s) :
      confirmations true (x.lines.map .heard) = if s.isOk then 1 else 0 := by
    obtain ⟨before, last, hlines, hbefore, hlast⟩ := hs
    rw [hlines, List.map_append, confirmations_open hbefore]
    simp [confirmations, hlast]
  have hopen (ho : x.Open) : confirmations true (x.lines.map .heard) = 0 := by
    simpa [confirmations] using confirmations_open ho true []
  cases h with
  | accepted hs hok | refused hs hok => rw [hclosed hs, hok]; rfl
  | broken ho _ | givenUp ho => exact hopen ho

end Confirmations

section Saying

theorem wordless_iff (text : String) :
    wordless text = true ↔ (Request.say text).command = none := by
  rw [command_eq_none_iff, wordless, List.all_eq_true]

/-- **What the shared connection answers to a text.** One without a word is said to be sent, and nothing
happens. Any other text is said to be sent exactly if its command was written and acknowledged. -/
theorem say_confirms (s : Nat × Client) (text : String) :
    let out := Endpoint.clientBackend.say s text
    (wordless text = true → out = (some true, s)) ∧
      (wordless text = false →
        out.2.2.confirmed = s.2.confirmed + if out.1 = some true then 1 else 0) := by
  obtain ⟨now, c⟩ := s
  rcases hcommand : (Request.say text).command with _ | command
  · have hblank := (wordless_iff text).2 hcommand
    simp [Endpoint.clientBackend, Client.serve_of_command_none hcommand, hblank]
  · have hword : wordless text = false := by
      rw [Bool.eq_false_iff, Ne, wordless_iff, hcommand]
      simp
    have hchat : isChat command = true := by
      obtain ⟨w, -, rfl⟩ := Option.map_eq_some_iff.1 hcommand
      exact isChat_say w
    obtain ⟨-, -, n, htotal, hadds⟩ := confirmedChat.perform_tallies c none now command
    have hconfirmed : (c.perform none now command).client.confirmed = c.confirmed + n := htotal
    have hn : n = if answered (c.perform none now command).result then 1 else 0 := by
      cases hadds with
      | nothing hnone =>
        rcases hresult : (c.perform none now command).result with _ | f | records
        · rfl
        · rfl
        · exact absurd hresult (hnone records)
      | exchange hx hgives => exact worth_of_gives (hx ▸ hchat) hgives
    have hserve := Client.serve_of_command (c := c) hcommand (by simp) none now
    simp only [Endpoint.clientBackend, hserve, hword]
    rcases hresult : (c.perform none now command).result with _ | f | records <;>
      simp [hconfirmed, hn, hresult, answered, Except.bind, Request.answer]

end Saying

namespace Endpoint

variable {e : Endpoint (Nat × Client)} {x x' : EndpointLog (Nat × Client)}

section Frames

/-- What the counter gains by one message that is relayed. -/
theorem relay_forwards (he : e.forward = some clientBackend) {m : ChatMessage}
    (h : e.relay x m = some x') :
    x'.forwarded + x.backend.2.confirmed =
      x.forwarded + x'.backend.2.confirmed + if wordless m.message then 1 else 0 := by
  obtain ⟨hblank, hword⟩ := say_confirms x.backend m.message
  unfold relay at h
  simp only [he] at h
  rcases hsay : clientBackend.say x.backend m.message with ⟨_ | sent, s⟩
  all_goals
    simp only [hsay] at h hblank hword
  · cases h
  · have hx' : x'.backend = s ∧ x'.forwarded = if sent then x.forwarded + 1 else x.forwarded := by
      cases hecho : e.echo <;> simp [hecho] at h <;> subst h <;> exact ⟨rfl, rfl⟩
    obtain ⟨rfl, hforwarded⟩ := hx'
    rcases hw : wordless m.message with _ | _
    · have hconfirmed := hword hw
      cases sent <;> simp [hforwarded] at hconfirmed ⊢ <;> omega
    · obtain ⟨rfl, hs⟩ : sent = true ∧ x'.backend = x.backend := by simpa using hblank hw
      simp [hforwarded, hs]
      omega

/-- **What the counter gains by one text frame**: what the sessions gain in acknowledged chat commands, and
one for a message without a word. -/
theorem frame_forwards (he : e.forward = some clientBackend) {text : String} {result : FrameResult}
    (h : e.frame x text = some (result, x')) :
    x'.forwarded + x.backend.2.confirmed =
      x.forwarded + x'.backend.2.confirmed + if (Frame.text text).wordless then 1 else 0 := by
  unfold frame at h
  rcases hparse : Packet.parse text with f | p
  · simp only [hparse] at h
    cases h
    simp [Frame.wordless, Frame.chat?, hparse, Except.bind]
  · rcases hopen : p.open? with f | m | header
    all_goals simp only [hparse, hopen] at h
    · cases h
      simp [Frame.wordless, Frame.chat?, hparse, hopen, Except.bind]
    · obtain ⟨y, hrelay, hy⟩ := Option.map_eq_some_iff.1 h
      cases hy
      have hwordless : (Frame.text text).wordless = wordless m.message := by
        simp [Frame.wordless, Frame.chat?, hparse, hopen, Except.bind]
      rw [hwordless]
      exact relay_forwards he hrelay
    · cases h
      simp [Frame.wordless, Frame.chat?, hparse, hopen, Except.bind]

/-- What the counter gains by some text frames, from any moment on. -/
theorem handle_forwards (he : e.forward = some clientBackend) {frames : List (Nat × String)}
    (h : e.handle x frames = some x') :
    x'.forwarded + x.backend.2.confirmed = x.forwarded + x'.backend.2.confirmed +
      frames.countP fun f => (Frame.text f.2).wordless := by
  induction frames generalizing x with
  | nil =>
    cases h
    rfl
  | cons f frames ih =>
    obtain ⟨pause, text⟩ := f
    unfold handle at h
    rcases hframe : e.frame { x with backend := (x.backend.1 + pause, x.backend.2) } text with
      _ | ⟨result, y⟩
    · rw [hframe] at h
      cases h
    · rw [hframe] at h
      have hfirst := frame_forwards he hframe
      have hrest := ih h
      rw [List.countP_cons]
      simp only at hfirst ⊢
      omega

end Frames

section Counting

/-- **The counter counts the acknowledged chat commands and the messages without a word.** Whatever streams
the query interface gives and whatever frames come, with whatever pauses: once all of them have been
handled, the counter is the number of chat commands that were written on the query sessions and
acknowledged by a status line with the number 0, and one more for each message of blanks alone. -/
theorem forwarded_unless_wordless (k : Credentials) (dials : List Dial) (exhausted : Fault)
    (echo : Bool) (frames : List (Nat × String)) {x : EndpointLog (Nat × Client)}
    (h : handle ⟨some clientBackend, echo⟩ (opening k dials exhausted) frames = some x) :
    x.forwarded =
      x.backend.2.confirmed + frames.countP fun f => (Frame.text f.2).wordless := by
  have hstart : (opening k dials exhausted).backend.2.confirmed = 0 :=
    (confirmedChat.connect_tallies (Client.fresh k dials exhausted) rfl none 0).2
  have hrun := handle_forwards rfl h
  rw [hstart] at hrun
  simpa [opening] using hrun

/-- Three messages, one of them blank: the server refuses the first, and acknowledges the last. -/
theorem forwarded_unless_wordless_three_messages :
    let ok := "error id=0 msg=ok\n\r"
    let script := "TS3\n\rWelcome\n\r" ++ ok ++ ok ++ "error id=2568 msg=x\n\r" ++ ok
    let dials := [.ok ⟨[.data (Utf8.encode script.toList)], none⟩]
    let k : Credentials := ⟨"serveradmin", "pw", "127.0.0.1", 10011, 1⟩
    let message (text : String) :=
      "\x7b\"header\":\"chatmessage\",\"payload\":\x7b\"message\":\"" ++ text ++ "\"\x7d\x7d"
    let frames := [(10, message "a"), (0, message "  "), (500, message "b")]
    ∃ x, handle ⟨some clientBackend, false⟩ (opening k dials .closed) frames = some x ∧
      x.forwarded = 2 ∧ x.backend.2.confirmed = 1 := by
  intro ok script dials k message frames
  have hhandled : (handle ⟨some clientBackend, false⟩ (opening k dials .closed) frames).map
      EndpointLog.forwarded = some 2 := by decide +kernel
  obtain ⟨x, hx, hforwarded⟩ := Option.map_eq_some_iff.1 hhandled
  have hcounted := forwarded_unless_wordless k dials .closed false frames hx
  have hblank : frames.countP (fun f => (Frame.text f.2).wordless) = 1 := by decide +kernel
  exact ⟨x, hx, hforwarded, by omega⟩

/-- A single message of one blank: nothing is written for it, and it is counted. -/
theorem blank_message_counted :
    let ok := "error id=0 msg=ok\n\r"
    let script := "TS3\n\rWelcome\n\r" ++ ok ++ ok
    let dials := [.ok ⟨[.data (Utf8.encode script.toList)], none⟩]
    let k : Credentials := ⟨"serveradmin", "pw", "127.0.0.1", 10011, 1⟩
    let blank := "\x7b\"header\":\"chatmessage\",\"payload\":\x7b\"message\":\" \"\x7d\x7d"
    ∃ x, handle ⟨some clientBackend, false⟩ (opening k dials .closed) [(0, blank)] = some x ∧
      x.forwarded = 1 ∧ x.backend.2.confirmed = 0 := by
  intro ok script dials k blank
  have hhandled : (handle ⟨some clientBackend, false⟩ (opening k dials .closed) [(0, blank)]).map
      (fun x => (x.forwarded, x.backend.2.confirmed)) = some (1, 0) := by decide +kernel
  obtain ⟨x, hx, hcounts⟩ := Option.map_eq_some_iff.1 hhandled
  exact ⟨x, hx, (Prod.ext_iff.1 hcounts).1, (Prod.ext_iff.1 hcounts).2⟩

end Counting

end Endpoint

end VoiceRelay
