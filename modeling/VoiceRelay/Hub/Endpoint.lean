import VoiceRelay.Chat.Packet
import VoiceRelay.Hub.Basic
import VoiceRelay.Query.Client

/-!
# The endpoint for browsers

Every connection of a browser is a subscriber of the hub. Its text frames are packets: a chat
message goes to the voice server, if forwarding is on, and, if echoing is on, also to all
subscribers. A packet that cannot be read ends the connection; all other frames leave it open.

**Backends.** Where chat is forwarded to is a state and a function on it: it answers that the text
was sent, that it was not, or never. The shared command connection is one backend.

**Results.**

- `frames` stops at the first frame that ends the connection, and at no other.
-/

namespace VoiceRelay

/-- What became of a text frame. -/
inductive FrameResult
  | relayed
  | ignored
  | skipped
  | ending
  deriving DecidableEq, Repr

/-- A place that chat is forwarded to: the answer is whether the text was sent, `none` if no answer
ever comes. -/
structure Backend (σ : Type) where
  say : σ → String → Option Bool × σ

/-- What the endpoint does with chat. -/
structure Endpoint (σ : Type) where
  forward : Option (Backend σ)
  echo : Bool

/-- What the endpoint has done: calls to the backend and messages for the hub, oldest first, and
the number of texts that were sent. -/
structure EndpointLog (σ : Type) where
  backend : σ
  called : List String
  echoed : List ChatMessage
  forwarded : Nat

/-- A frame from a browser. -/
inductive Frame
  | text (s : String)
  | binary
  | ping
  | pong
  | close
  | failure
  deriving DecidableEq, Repr

namespace Endpoint

variable {σ : Type}

section Defs

/-- Forwards and echoes a chat message; `none` if the backend never answers. -/
def relay (e : Endpoint σ) (x : EndpointLog σ) (m : ChatMessage) : Option (EndpointLog σ) :=
  let forwarded : Option (EndpointLog σ) :=
    match e.forward with
    | none => some x
    | some b =>
      match b.say x.backend m.message with
      | (none, _) => none
      | (some sent, s) =>
        some { x with
          backend := s
          called := x.called ++ [m.message]
          forwarded := if sent then x.forwarded + 1 else x.forwarded }
  forwarded.map fun x => if e.echo then { x with echoed := x.echoed ++ [m] } else x

/-- Handles a text frame; `none` if the backend never answers. -/
def frame (e : Endpoint σ) (x : EndpointLog σ) (text : String) :
    Option (FrameResult × EndpointLog σ) :=
  match Packet.parse text with
  | .error _ => some (.ending, x)
  | .ok p =>
    match p.open? with
    | .error _ => some (.skipped, x)
    | .ok (.unknown _) => some (.ignored, x)
    | .ok (.chat m) => (e.relay x m).map (FrameResult.relayed, ·)

/-- Handles the frames of a connection up to the one that ends it. -/
def frames (e : Endpoint σ) (x : EndpointLog σ) : List Frame → Option (EndpointLog σ)
  | [] => some x
  | .text s :: fs =>
    match e.frame x s with
    | none => none
    | some (.ending, x) => some x
    | some (_, x) => e.frames x fs
  | .close :: _ | .failure :: _ => some x
  | .binary :: fs | .ping :: fs | .pong :: fs => e.frames x fs

/-- What one connection asks of the hub, in order: to be registered, its echoes, and at the end to
be unregistered. -/
def connection (e : Endpoint σ) (id : SubscriberId) (sink : Sink) (start : EndpointLog σ)
    (fs : List Frame) : Option (List Hub.Item × EndpointLog σ) :=
  (e.frames start fs).map fun x =>
    ([.control (.register id sink)] ++
      (x.echoed.drop start.echoed.length).map .chat ++ [.control (.unregister id)], x)

/-- The shared command connection as a backend. -/
def clientBackend : Backend (Nat × Client) where
  say s text :=
    let call := s.2.serve none s.1 (.say text)
    let state := (call.now, call.client)
    match call.result with
    | none => (none, state)
    | some (.ok _) => (some true, state)
    | some (.error _) => (some false, state)

end Defs

end Endpoint
end VoiceRelay
