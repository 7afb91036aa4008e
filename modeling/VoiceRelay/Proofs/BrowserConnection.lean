import VoiceRelay.Hub.Endpoint

/-!
# The run of a browser's connection

A connection of a browser is registered with the hub before its first frame is handled and unregistered
after its last one, whatever ended it. In between every frame has its own effect and no other: a chat
message is forwarded and echoed once, a frame that ends the connection is the last one that is handled,
and all other frames pass without a trace.

**Design.** `Frame.ends` and `Frame.chat?` sort the frames, and `chatsIn` are the messages in front of the
frame that ends the connection. `Endpoint.after` is what the endpoint has done once it has handled some
messages; handling more of them continues from there.

**Results.**

- `relay_eq`: what one chat message does.
- `frames_eq`: what the frames of a connection do.
- `connection_run`: what a connection asks of the hub and of the backend.
-/

namespace VoiceRelay

section Defs

variable {σ : Type}

/-- Whether a frame ends its connection: one that closes it, one that could not be read, and a text that
is no packet. -/
def Frame.ends : Frame → Bool
  | .text s =>
    match Packet.parse s with
    | .error _ => true
    | .ok _ => false
  | .close | .failure => true
  | .binary | .ping | .pong => false

/-- The chat message that a frame carries. -/
def Frame.chat? : Frame → Option ChatMessage
  | .text s =>
    match (Packet.parse s).bind Packet.open? with
    | .ok (.chat m) => some m
    | _ => none
  | _ => none

/-- The chat messages in front of the frame that ends a connection. -/
def chatsIn (fs : List Frame) : List ChatMessage :=
  (fs.takeWhile fun f => !f.ends).filterMap Frame.chat?

/-- What a backend answers to some texts one after the other, and what has become of it then. -/
def Backend.talk (b : Backend σ) (s : σ) : List String → List (Option Bool) × σ
  | [] => ([], s)
  | text :: texts => ((b.say s text).1 :: (b.talk (b.say s text).2 texts).1,
      (b.talk (b.say s text).2 texts).2)

namespace Endpoint

/-- A backend that answers every call, with or without success. -/
def Answers (e : Endpoint σ) : Prop := ∀ b ∈ e.forward, ∀ s text, (b.say s text).1 ≠ none

/-- The texts that the backend is called with for some messages. -/
def calls (e : Endpoint σ) (messages : List ChatMessage) : List String :=
  if e.forward.isSome then messages.map ChatMessage.message else []

/-- The messages that are put into the hub's queue for some messages. -/
def echoes (e : Endpoint σ) (messages : List ChatMessage) : List ChatMessage :=
  if e.echo then messages else []

/-- The answers to the calls for some messages, and what has become of the backend then. -/
def talk (e : Endpoint σ) (s : σ) (messages : List ChatMessage) : List (Option Bool) × σ :=
  match e.forward with
  | none => ([], s)
  | some b => b.talk s (messages.map ChatMessage.message)

/-- What the endpoint has done after some more messages. -/
def after (e : Endpoint σ) (x : EndpointLog σ) (messages : List ChatMessage) : EndpointLog σ where
  backend := (e.talk x.backend messages).2
  called := x.called ++ e.calls messages
  echoed := x.echoed ++ e.echoes messages
  forwarded := x.forwarded + (e.talk x.backend messages).1.count (some true)

end Endpoint

end Defs

namespace Endpoint

variable {σ : Type} {e : Endpoint σ}

section Messages

theorem calls_cons (m : ChatMessage) (messages : List ChatMessage) :
    e.calls (m :: messages) = e.calls [m] ++ e.calls messages := by
  unfold calls
  split <;> simp

theorem echoes_cons (m : ChatMessage) (messages : List ChatMessage) :
    e.echoes (m :: messages) = e.echoes [m] ++ e.echoes messages := by
  unfold echoes
  split <;> simp

theorem talk_cons (s : σ) (m : ChatMessage) (messages : List ChatMessage) :
    e.talk s (m :: messages) = ((e.talk s [m]).1 ++ (e.talk (e.talk s [m]).2 messages).1,
      (e.talk (e.talk s [m]).2 messages).2) := by
  unfold talk
  cases e.forward with
  | none => rfl
  | some b => rfl

theorem after_nil (x : EndpointLog σ) : e.after x [] = x := by
  cases hforward : e.forward <;> cases hecho : e.echo <;>
    simp [after, talk, calls, echoes, Backend.talk, hforward, hecho]

/-- Handling more messages continues from where the first one has led. -/
theorem after_cons (x : EndpointLog σ) (m : ChatMessage) (messages : List ChatMessage) :
    e.after (e.after x [m]) messages = e.after x (m :: messages) := by
  rw [after, after, after, calls_cons m messages, echoes_cons m messages,
    talk_cons x.backend m messages]
  simp only [List.append_assoc, List.count_append, Nat.add_assoc]

/-- **What one chat message does**: it is forwarded once and echoed once, the latter whatever the answer
is. -/
theorem relay_eq (he : e.Answers) (x : EndpointLog σ) (m : ChatMessage) :
    e.relay x m = some (e.after x [m]) := by
  unfold relay
  cases hforward : e.forward with
  | none => cases hecho : e.echo <;> simp [after, talk, calls, echoes, hforward, hecho]
  | some b =>
    have hanswer := he b hforward x.backend m.message
    rcases hsay : b.say x.backend m.message with ⟨answer, s⟩
    rw [hsay] at hanswer
    obtain ⟨sent, rfl⟩ := Option.ne_none_iff_exists'.1 hanswer
    cases sent <;> cases hecho : e.echo <;>
      simp [after, talk, calls, echoes, Backend.talk, hforward, hecho, hsay]

end Messages

section Frames

/-- What a text frame does that ends the connection. -/
theorem frame_ending {s : String} (h : (Frame.text s).ends = true) (x : EndpointLog σ) :
    e.frame x s = some (.ending, x) := by
  cases hparse : Packet.parse s with
  | error fault => simp only [frame, hparse]
  | ok p =>
    simp only [Frame.ends, hparse] at h
    cases h

/-- What any other text frame does: it relays the message that it carries, if there is one. -/
theorem frame_open (he : e.Answers) {s : String} (h : (Frame.text s).ends = false)
    (x : EndpointLog σ) :
    ∃ result, result ≠ .ending ∧
      e.frame x s = some (result, e.after x (Frame.text s).chat?.toList) := by
  cases hparse : Packet.parse s with
  | error fault =>
    simp only [Frame.ends, hparse] at h
    cases h
  | ok p =>
    cases hopen : p.open? with
    | error fault =>
      have hchat : (Frame.text s).chat? = none := by simp [Frame.chat?, hparse, hopen, Except.bind]
      refine ⟨.skipped, by decide, ?_⟩
      rw [hchat, Option.toList_none, after_nil]
      simp only [frame, hparse, hopen]
    | ok incoming =>
      cases incoming with
      | unknown header =>
        have hchat : (Frame.text s).chat? = none := by simp [Frame.chat?, hparse, hopen, Except.bind]
        refine ⟨.ignored, by decide, ?_⟩
        rw [hchat, Option.toList_none, after_nil]
        simp only [frame, hparse, hopen]
      | chat m =>
        have hchat : (Frame.text s).chat? = some m := by simp [Frame.chat?, hparse, hopen, Except.bind]
        refine ⟨.relayed, by decide, ?_⟩
        rw [hchat, Option.toList_some]
        simp only [frame, hparse, hopen, relay_eq he, Option.map_some]

theorem chatsIn_ending {f : Frame} (h : f.ends = true) (fs : List Frame) : chatsIn (f :: fs) = [] := by
  rw [chatsIn, List.takeWhile_cons_of_neg (by simp [h])]
  rfl

theorem chatsIn_open {f : Frame} (h : f.ends = false) (fs : List Frame) :
    chatsIn (f :: fs) = f.chat?.toList ++ chatsIn fs := by
  rw [chatsIn, List.takeWhile_cons_of_pos (by simp [h]), List.filterMap_cons]
  cases f.chat? <;> rfl

theorem after_append (x : EndpointLog σ) (m? : Option ChatMessage) (messages : List ChatMessage) :
    e.after (e.after x m?.toList) messages = e.after x (m?.toList ++ messages) := by
  cases m? with
  | none => rw [Option.toList_none, after_nil, List.nil_append]
  | some m => exact after_cons x m messages

/-- **What the frames of a connection do**: the messages in front of the frame that ends it are handled
one after the other, and nothing else is done. -/
theorem frames_eq (he : e.Answers) (x : EndpointLog σ) (fs : List Frame) :
    e.frames x fs = some (e.after x (chatsIn fs)) := by
  induction fs generalizing x with
  | nil => exact congrArg some (after_nil x).symm
  | cons f fs ih =>
    have hpass (h : f.ends = false) (hchat : f.chat? = none) :
        e.frames x fs = some (e.after x (chatsIn (f :: fs))) := by
      rw [ih, chatsIn_open h, hchat, Option.toList_none, List.nil_append]
    have hstop (h : f.ends = true) : some x = some (e.after x (chatsIn (f :: fs))) := by
      rw [chatsIn_ending h, after_nil]
    cases f with
    | text s =>
      cases hends : (Frame.text s).ends with
      | true =>
        rw [frames, frame_ending hends]
        exact hstop hends
      | false =>
        obtain ⟨result, hresult, hframe⟩ := frame_open he hends x
        have hmore : e.frames x (.text s :: fs) = e.frames (e.after x (Frame.text s).chat?.toList) fs := by
          rw [frames, hframe]
          cases result with
          | ending => exact absurd rfl hresult
          | relayed => rfl
          | ignored => rfl
          | skipped => rfl
        rw [hmore, ih, after_append, chatsIn_open hends]
    | binary => exact hpass rfl rfl
    | ping => exact hpass rfl rfl
    | pong => exact hpass rfl rfl
    | close => exact hstop rfl
    | failure => exact hstop rfl

end Frames

section Connections

/-- **The run of a connection.** Whatever frames come and whatever ends them, the connection is registered
first and unregistered last, once each; in between the hub gets the messages in front of the frame that
ended it, if echoing is on. If forwarding is on, the backend is called once with the text of each of them,
in the same order, and the texts that were sent are those for which it answered so. -/
theorem connection_run (he : e.Answers) (id : SubscriberId) (sink : Sink) (start : EndpointLog σ)
    (fs : List Frame) :
    e.connection id sink start fs = some
      ([.control (.register id sink)] ++ (e.echoes (chatsIn fs)).map .chat ++
          [.control (.unregister id)],
        { backend := (e.talk start.backend (chatsIn fs)).2
          called := start.called ++ e.calls (chatsIn fs)
          echoed := start.echoed ++ e.echoes (chatsIn fs)
          forwarded := start.forwarded + (e.talk start.backend (chatsIn fs)).1.count (some true) }) := by
  rw [connection, frames_eq he, Option.map_some]
  simp [after]

/-- A connection that a text without a packet ends, with a backend that refuses the first text and takes
the second. The message after the end is not seen. -/
theorem connection_run_refused_once :
    let backend : Backend Nat := ⟨fun n _ => (some (n % 2 == 1), n + 1)⟩
    let e : Endpoint Nat := ⟨some backend, true⟩
    let fs : List Frame := [.ping,
      .text "\x7b\"header\":\"chatmessage\",\"payload\":\x7b\"message\":\"a\"\x7d\x7d",
      .text "\x7b\"header\":\"chatmessage\",\"payload\":1\x7d", .text "\x7b\"header\":\"x\"\x7d", .binary,
      .text "\x7b\"header\":\"chatmessage\",\"payload\":[\"\",\"b\"]\x7d", .text "\x7b\x7d",
      .text "\x7b\"header\":\"chatmessage\",\"payload\":\x7b\"message\":\"c\"\x7d\x7d"]
    e.Answers ∧ ∀ id sink, e.connection id sink ⟨0, [], [], 5⟩ fs = some
      ([.control (.register id sink), .chat ⟨"", "a", ""⟩, .chat ⟨"", "b", ""⟩,
          .control (.unregister id)],
        ⟨2, ["a", "b"], [⟨"", "a", ""⟩, ⟨"", "b", ""⟩], 6⟩) := by
  intro backend e fs
  have he : e.Answers := by
    rintro b hb s text
    cases hb
    exact Option.some_ne_none _
  have hchats : chatsIn fs = [⟨"", "a", ""⟩, ⟨"", "b", ""⟩] := by decide +kernel
  refine ⟨he, fun id sink => ?_⟩
  rw [connection_run he, hchats]
  rfl

end Connections

end Endpoint
end VoiceRelay
