import VoiceRelay.Chat.Envelope

/-!
# What a browser sends to the relay

A packet is a header and a payload. Under the header for chat the payload is a chat message, either
as it stands or as a string that holds its JSON text; packets with any other header are known by
that header only. A packet that cannot be read at all ends the connection, a payload that cannot
be read is passed over.
-/

namespace VoiceRelay

open Json (Value Problem Decoder)

/-- A header and a payload. -/
structure Packet where
  header : String
  payload : Value
  deriving Repr

/-- What a packet means. -/
inductive Incoming
  | chat (message : ChatMessage)
  | unknown (header : String)
  deriving DecidableEq, Repr

/-- Why a packet means nothing. -/
inductive PacketFault
  | packet (cause : Problem)
  | payload (header : String) (cause : Problem)
  deriving DecidableEq, Repr

namespace PacketFault

/-- What the JSON reader found. -/
def cause : PacketFault → Problem
  | packet p => p
  | payload _ p => p

/-- Whether only the payload is at fault. -/
def isPayload : PacketFault → Bool
  | packet _ => false
  | payload _ _ => true

/-- The text of a fault; `detail` is the JSON reader's own text. -/
def message (detail : String) : PacketFault → String
  | packet _ => "Ungueltiges Paket: " ++ detail
  | payload header _ => "Ungueltiger Payload fuer '" ++ header ++ "': " ++ detail

end PacketFault

namespace Packet

section Defs

/-- A field of a packet: the header or the payload. -/
abbrev Part := String ⊕ Value

/-- The packet that a header and a payload give; a missing payload is `null`. -/
def ofParts : Option Part → Option Part → Except Problem Packet
  | some (.inl header), some (.inr payload) => .ok ⟨header, payload⟩
  | some (.inl header), none => .ok ⟨header, .null⟩
  | _, _ => .error .mismatched

/-- Reads a packet from JSON text. -/
def decoder : Decoder Packet :=
  .structured
    [(Envelope.headerField, Decoder.text.map Sum.inl),
      (Envelope.payloadField, (Decoder.value .replacing Envelope.payloadLimit).map Sum.inr)]
    (fun ms => ofParts (ms.lookup Envelope.headerField) (ms.lookup Envelope.payloadField))
    (fun
      | [a] => ofParts (some a) none
      | [a, b] => ofParts (some a) (some b)
      | _ => .error .mismatched)

/-- Reads a packet from a text frame. -/
def parse (text : String) : Except PacketFault Packet :=
  match decoder.readAll text with
  | .ok p => .ok p
  | .error q => .error (.packet q)

/-- The chat message in a payload. -/
def chatOf : Value → Except Problem ChatMessage
  | .text s => ChatMessage.decoder.readAll s
  | v => ChatMessage.ofValue v

/-- What a packet means. -/
def open? (p : Packet) : Except PacketFault Incoming :=
  if p.header = Header.chat.name then
    match chatOf p.payload with
    | .ok m => .ok (.chat m)
    | .error q => .error (.payload p.header q)
  else .ok (.unknown p.header)

end Defs

end Packet
end VoiceRelay
