import VoiceRelay.Chat.Message
import VoiceRelay.Query.Roster

/-!
# What the relay sends to browsers

Every message to a browser is an object of two members, `header` and `payload`: a chat message, the
list of channels with those inside, or a line of server chat. The header decides the shape of the
payload.

**Reading.** The two members may come in either order, or as an array of two items. If the payload
comes first it is kept as a value until the header is known. A header may also be written as an
object with the header as its only key and `null` as its value.

**Results.**

- `member_length`: reading a member uses up at least one event.
- `ofMembers_known`: one member of an envelope, and what comes after it.
-/

namespace VoiceRelay

open Json (Value Problem Decoder Event)

/-- A message to every browser. -/
inductive Envelope
  | chat (message : ChatMessage)
  | roster (rooms : List Room)
  | server (text : String)
  deriving DecidableEq, Repr

/-- The kinds of message. -/
inductive Header
  | chat
  | roster
  | server
  deriving DecidableEq, Repr

namespace Header

/-- The word on the wire. -/
def name : Header → String
  | chat => "chatmessage"
  | roster => "clientlist"
  | server => "servermsg"

/-- The kind that a word stands for. -/
def ofName? (s : String) : Option Header :=
  if s = chat.name then some chat
  else if s = roster.name then some roster
  else if s = server.name then some server
  else none

/-- Every kind, in the order of their words. -/
def all : List Header := [chat, roster, server]

end Header

namespace Room

/-- The names of the fields, in order. -/
def nameField : String := "ChannelName"
def membersField : String := "Clients"

/-- A field of a room: the name or the members. -/
abbrev Part := String ⊕ List String

/-- The room that the name and the members give. -/
def ofParts : Option Part → Option Part → Except Problem Room
  | some (.inl name), some (.inr members) => .ok ⟨name, members⟩
  | _, _ => .error .mismatched

/-- Reads a room from JSON text. -/
def decoder : Decoder Room :=
  .structured
    [(nameField, Decoder.text.map Sum.inl), (membersField, (Decoder.list .text).map Sum.inr)]
    (fun ms => ofParts (ms.lookup nameField) (ms.lookup membersField))
    (fun
      | [a, b] => ofParts (some a) (some b)
      | _ => .error .mismatched)

/-- A value that must be a list of strings. -/
def textsOf : Value → Except Problem (List String)
  | .array items => items.mapM ChatMessage.textOf
  | _ => .error .mismatched

/-- The known members of an object; each must have its shape and come once. -/
def knownMembers (name : Option String) (members : Option (List String)) :
    List (String × Value) → Except Problem Room
  | [] =>
    match name, members with
    | some n, some ms => .ok ⟨n, ms⟩
    | _, _ => .error .mismatched
  | (k, v) :: rest =>
    if k = nameField then
      match name, ChatMessage.textOf v with
      | none, .ok s => knownMembers (some s) members rest
      | _, _ => .error .mismatched
    else if k = membersField then
      match members, textsOf v with
      | none, .ok l => knownMembers name (some l) rest
      | _, _ => .error .mismatched
    else knownMembers name members rest

/-- The room that a value spells. -/
def ofValue : Value → Except Problem Room
  | .object ms => knownMembers none none ms
  | .array [n, l] => do return ⟨← ChatMessage.textOf n, ← textsOf l⟩
  | _ => .error .mismatched

/-- The room as a value. -/
def toValue (r : Room) : Value :=
  .object [(nameField, .text r.name), (membersField, .array (r.members.map .text))]

end Room

namespace Envelope

section Writing

/-- The kind of an envelope. -/
def header : Envelope → Header
  | chat _ => .chat
  | roster _ => .roster
  | server _ => .server

/-- The names of the two members. -/
def headerField : String := "header"
def payloadField : String := "payload"

/-- The payload as a value. -/
def payload : Envelope → Value
  | chat m => m.toValue
  | roster rooms => .array (rooms.map Room.toValue)
  | server s => .text s

/-- The envelope as a value. -/
def toValue (e : Envelope) : Value :=
  .object [(headerField, .text e.header.name), (payloadField, e.payload)]

/-- The compact JSON text of an envelope. -/
def toJson (e : Envelope) : String := e.toValue.render

end Writing

section Reading

/-- The most brackets that a payload may open inside each other. -/
def payloadLimit : Nat := 126

/-- Reads the payload that a header asks for. -/
def payloadDecoder : Header → Decoder Envelope
  | .chat => ChatMessage.decoder.map chat
  | .roster => (Decoder.list Room.decoder).map roster
  | .server => Decoder.text.map server

/-- The payload that a header asks for, from a value. -/
def ofPayload : Header → Value → Except Problem Envelope
  | .chat, v => (ChatMessage.ofValue v).map chat
  | .roster, .array items => (items.mapM Room.ofValue).map roster
  | .roster, _ => .error .mismatched
  | .server, v => (ChatMessage.textOf v).map server

/-- The header that a word stands for. -/
def headerOf (s : String) : Except Problem Header :=
  match Header.ofName? s with
  | some h => .ok h
  | none => .error .mismatched

/-- Reads a header. -/
def runHeader : List Event → Except Problem (Header × List Event)
  | .string (.ok s) :: es => (headerOf s).map (·, es)
  | .string (.error p) :: _ => .error p
  | .openObject :: .key (.ok k) :: es =>
    match headerOf k, es with
    | .error p, _ => .error p
    | .ok h, .colon :: .word (.ok .null) :: .closeObject :: rest => .ok (h, rest)
    | .ok _, .colon :: .word (.ok .null) :: .fault p :: _ => .error p
    | .ok _, .colon :: .word (.ok .null) :: _ => .error .malformed
    | .ok _, .colon :: es => .error (Json.wrongKind es)
    | .ok _, .fault p :: _ => .error p
    | .ok _, _ => .error .malformed
  | .openObject :: .key (.error p) :: _ => .error p
  | .openObject :: .noKey p :: _ | .openObject :: .fault p :: _ => .error p
  | .fault p :: _ => .error p
  | [] => .error .truncated
  | _ => .error .malformed

theorem runHeader_length {es rest : List Event} {h : Header}
    (hr : runHeader es = .ok (h, rest)) : rest.length < es.length := by
  unfold runHeader at hr
  split at hr
  · next s es =>
    cases hs : headerOf s with
    | error p => simp [hs, Except.map] at hr
    | ok g =>
      simp only [hs, Except.map, Except.ok.injEq, Prod.mk.injEq] at hr
      simp [hr.2]
  · simp at hr
  · split at hr
    · simp at hr
    · simp only [Except.ok.injEq, Prod.mk.injEq] at hr
      simp only [← hr.2, List.length_cons]
      omega
    all_goals simp at hr
  all_goals simp at hr

/-- Reads a header. -/
def headerDecoder : Decoder Header := ⟨runHeader, runHeader_length⟩

/-- How far the members of an envelope have been read. -/
inductive Progress
  | nothing
  | header (h : Header)
  | payload (v : Value)
  | complete (e : Envelope)
  deriving Repr

/-- What the end of the members gives. -/
def Progress.finish : Progress → Except Problem Envelope
  | complete e => .ok e
  | _ => .error .mismatched

/-- Reads one known member. -/
def Progress.member (p : Progress) (isHeader : Bool) (es : List Event) :
    Except Problem (Progress × List Event) :=
  match p, isHeader with
  | nothing, true => (headerDecoder.run es).map fun (h, rest) => (header h, rest)
  | nothing, false =>
    ((Decoder.value .kept payloadLimit).run es).map fun (v, rest) => (payload v, rest)
  | header h, false => ((payloadDecoder h).run es).map fun (e, rest) => (complete e, rest)
  | payload v, true =>
    match headerDecoder.run es with
    | .error q => .error q
    | .ok (h, rest) => (ofPayload h v).map fun e => (complete e, rest)
  | _, _ => .error .mismatched

/-- Whether a known member may still come. -/
def Progress.takes (p : Progress) (isHeader : Bool) : Bool :=
  match p, isHeader with
  | nothing, _ => true
  | header _, false => true
  | payload _, true => true
  | _, _ => false

theorem map_rest {α β : Type} {d : Decoder α} {f : α → β} {es rest : List Event} {b : β}
    (h : (d.run es).map (fun x => (f x.1, x.2)) = .ok (b, rest)) : rest.length < es.length := by
  cases hd : d.run es with
  | error q => simp [hd, Except.map] at h
  | ok ar =>
    simp only [hd, Except.map, Except.ok.injEq, Prod.mk.injEq] at h
    exact d.shrinks (by rw [hd, ← h.2])

theorem member_length {p p' : Progress} {isHeader : Bool} {es rest : List Event}
    (h : p.member isHeader es = .ok (p', rest)) : rest.length < es.length := by
  unfold Progress.member at h
  split at h
  · exact map_rest h
  · exact map_rest h
  · exact map_rest h
  · split at h
    · simp at h
    · next hh r hr =>
      cases ho : ofPayload hh ‹Value› with
      | error q => simp [ho, Except.map] at h
      | ok e =>
        simp only [ho, Except.map, Except.ok.injEq, Prod.mk.injEq] at h
        rw [← h.2]
        exact headerDecoder.shrinks hr
  · simp at h

/-- Reads the members of an envelope up to the closing bracket. -/
def ofMembers (p : Progress) : List Event → Except Problem (Envelope × List Event)
  | [] => .error .truncated
  | .closeObject :: es => p.finish.map (·, es)
  | .comma :: es => ofMembers p es
  | .fault q :: _ | .key (.error q) :: _ => .error q
  | .key (.ok k) :: es =>
    if k = headerField ∨ k = payloadField then
      if p.takes (k == headerField) then
        match _hc : Decoder.afterColon es with
        | .error q => .error q
        | .ok es' =>
          match _hm : p.member (k == headerField) es' with
          | .error q => .error q
          | .ok (p', rest) => ofMembers p' rest
      else .error .mismatched
    else
      match _hc : Decoder.afterColon es with
      | .error q => .error q
      | .ok es' =>
        match _hs : Decoder.skipFrom 0 es' with
        | .error q => .error q
        | .ok rest => ofMembers p rest
  | _ => .error .malformed
  termination_by es => es.length
  decreasing_by
    all_goals simp only [List.length_cons]
    · omega
    · have := Decoder.afterColon_length _hc
      have := member_length _hm
      omega
    · have := Decoder.afterColon_length _hc
      have := Decoder.skipFrom_length _hs
      omega

/-- A known member is read, and then the members that come after it. -/
theorem ofMembers_known {p p' : Progress} {k : String} {es rest : List Event}
    (hk : k = headerField ∨ k = payloadField) (htakes : p.takes (k == headerField) = true)
    (hm : p.member (k == headerField) es = .ok (p', rest)) :
    ofMembers p (.key (.ok k) :: .colon :: es) = ofMembers p' rest := by
  rw [ofMembers, if_pos hk, if_pos htakes]
  simp only [Decoder.afterColon]
  split
  · next hm' => cases hm.symm.trans hm'
  · next hm' =>
    cases hm.symm.trans hm'
    rfl

/-- Reads the two items of an envelope up to the closing bracket. -/
def ofItems (es : List Event) : Except Problem (Envelope × List Event) :=
  match Decoder.closed? es with
  | some _ => .error .mismatched
  | none =>
    match runHeader es with
    | .error q => .error q
    | .ok (h, rest) =>
      match Decoder.closed? rest with
      | some _ => .error .mismatched
      | none =>
        match (payloadDecoder h).run (Decoder.dropComma rest) with
        | .error q => .error q
        | .ok (e, rest) =>
          match Decoder.closed? rest with
          | some rest => .ok (e, rest)
          | none => .error (Decoder.notClosed rest)

/-- Reads an envelope from the front of some events. -/
def ofEvents : List Event → Except Problem (Envelope × List Event)
  | .openObject :: es => ofMembers .nothing es
  | .openArray :: es => ofItems es
  | es => .error (Json.wrongKind es)

/-- Reads an envelope from JSON text. -/
def parse (text : String) : Except Problem Envelope :=
  match ofEvents (Json.scan text) with
  | .error q => .error q
  | .ok (e, []) => .ok e
  | .ok (_, .fault q :: _) => .error q
  | .ok _ => .error .malformed

end Reading

end Envelope
end VoiceRelay
