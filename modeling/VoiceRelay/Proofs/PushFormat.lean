import VoiceRelay.Chat.Packet
import VoiceRelay.Proofs.JsonReading
import Mathlib.Data.List.Permutation

/-!
# The format of the push channel

What the relay writes for browsers is read back: by a reader of envelopes, which gets the same
envelope, and by the relay's own reader of packets, which gets its header, and under the header for
chat the same message. It makes no difference which of the two members comes first, nor what blanks
stand between the tokens.

**Design.** Each type has a decoder that works on events and a reader that works on a value. A chat
message and a room are read back by both; so is the payload that a header asks for. An envelope has
two members, and each order of the two uses another reader of the payload.

**Results.**

- `reads_payload`, `ofPayload_payload`: a payload is read back, from events and from a value.
- `ofEvents_members`: an envelope is read back from its members, in either order.
- `packet_reads`: so is the packet.
- `push_format`: the format as a whole.
-/

namespace VoiceRelay

open Json (Value Problem Decoder Repeats Spaced)

section Parts

/-- Values that are read back one by one are read back as a list. -/
theorem mapM_map {α : Type} {read : Value → Except Problem α} {write : α → Value}
    (h : ∀ a, read (write a) = .ok a) (as : List α) : (as.map write).mapM read = .ok as := by
  have hpure : read ∘ write = pure := funext h
  rw [List.mapM_map, hpure, List.mapM_pure, List.map_id']
  rfl

theorem reads_texts (ss : List String) :
    (Decoder.list .text).Reads (Value.array (ss.map .text)).events ss :=
  Decoder.reads_array Decoder.reads_text ss

theorem plain_texts {r : Repeats} (n : Nat) (ss : List String) :
    (Value.array (ss.map .text)).Plain r (n + 1) := by
  refine .array fun v hv => ?_
  obtain ⟨s, -, rfl⟩ := List.mem_map.1 hv
  exact .text n s

namespace ChatMessage

theorem fields_nodup : [ipField, messageField, timeField].Nodup := by decide

/-- A message is read back from its events. -/
theorem reads_toValue (m : ChatMessage) : decoder.Reads m.toValue.events m := by
  rw [toValue, Value.events, Json.memberEvents_eq]
  exact Decoder.reads_structured
    (.cons (Decoder.spells rfl (Decoder.reads_text m.ip))
      (.cons (Decoder.spells rfl (Decoder.reads_text m.message))
        (.cons (Decoder.spells rfl (Decoder.reads_text m.time)) .nil)))
    fields_nodup rfl

/-- A message is read back from its value. -/
theorem ofValue_toValue (m : ChatMessage) : ofValue m.toValue = .ok m := by
  rfl

theorem plain_toValue {r : Repeats} (n : Nat) (m : ChatMessage) : m.toValue.Plain r (n + 1) := by
  refine .object (fun v hv => ?_) fun _ => fields_nodup
  simp only [List.mem_cons, List.not_mem_nil, or_false] at hv
  rcases hv with rfl | rfl | rfl <;> exact .text n _

end ChatMessage

namespace Room

theorem fields_nodup : [nameField, membersField].Nodup := by decide

/-- A room is read back from its events. -/
theorem reads_toValue (r : Room) : decoder.Reads r.toValue.events r := by
  have hname := (Decoder.reads_text r.name).map (Sum.inl : String → Part)
  have hmembers := (reads_texts r.members).map (Sum.inr : List String → Part)
  rw [toValue, Value.events, Json.memberEvents_eq]
  exact Decoder.reads_structured
    (.cons (Decoder.spells rfl hname) (.cons (Decoder.spells rfl hmembers) .nil)) fields_nodup rfl

/-- A room is read back from its value. -/
theorem ofValue_toValue (r : Room) : ofValue r.toValue = .ok r := by
  have htext : ∀ s, ChatMessage.textOf (.text s) = .ok s := fun _ => rfl
  have htexts := mapM_map htext r.members
  have hfields : membersField ≠ nameField := by decide
  simp only [ofValue, toValue, knownMembers, textsOf, htext, if_true, if_neg hfields, htexts]

theorem plain_toValue {rule : Repeats} (n : Nat) (r : Room) : r.toValue.Plain rule (n + 2) := by
  refine .object (fun v hv => ?_) fun _ => fields_nodup
  simp only [List.mem_cons, List.not_mem_nil, or_false] at hv
  rcases hv with rfl | rfl
  · exact .text (n + 1) r.name
  · exact plain_texts n r.members

end Room

end Parts

namespace Envelope

section Defs

/-- The two members of an envelope, in the order in which they are written. -/
def members (e : Envelope) : List (String × Value) :=
  [(headerField, .text e.header.name), (payloadField, e.payload)]

/-- What a packet with the header and the payload of an envelope means to the relay. -/
def incoming : Envelope → Incoming
  | chat m => .chat m
  | e => .unknown e.header.name

/-- From this text both sides read this envelope. -/
structure ReadFrom (text : String) (e : Envelope) : Prop where
  parse : Envelope.parse text = .ok e
  packet : ∃ p, Packet.parse text = .ok p ∧ p.header = e.header.name ∧ p.open? = .ok e.incoming

end Defs

section Payload

/-- The payload is read back from its events, once the header is known. -/
theorem reads_payload (e : Envelope) : (payloadDecoder e.header).Reads e.payload.events e := by
  cases e with
  | chat m => exact (m.reads_toValue).map chat
  | roster rooms => exact (Decoder.reads_array Room.reads_toValue rooms).map roster
  | server s => exact (Decoder.reads_text s).map server

/-- The payload is read back from its value, once the header is known. -/
theorem ofPayload_payload (e : Envelope) : ofPayload e.header e.payload = .ok e := by
  cases e with
  | chat m =>
    simp only [ofPayload, header, payload, m.ofValue_toValue]
    rfl
  | roster rooms =>
    simp only [ofPayload, header, payload, mapM_map Room.ofValue_toValue]
    rfl
  | server s => rfl

theorem plain_payload {r : Repeats} (n : Nat) (e : Envelope) : e.payload.Plain r (n + 3) := by
  cases e with
  | chat m => exact m.plain_toValue (n + 2)
  | roster rooms =>
    refine .array fun v hv => ?_
    obtain ⟨room, -, rfl⟩ := List.mem_map.1 hv
    exact room.plain_toValue n
  | server s => exact .text (n + 3) s

theorem reads_kept (r : Repeats) (e : Envelope) :
    (Decoder.value r payloadLimit).Reads e.payload.events e.payload :=
  Decoder.reads_value (e.plain_payload 0) (by decide)

theorem reads_header (h : Header) : headerDecoder.Reads (Value.text h.name).events h := by
  intro rest
  cases h <;> rfl

end Payload

section Members

variable {e : Envelope} {ms : List (String × Value)}

theorem fields_nodup : [headerField, payloadField].Nodup := by decide

theorem plain_members (r : Repeats) (h : ms.Perm e.members) : (Value.object ms).Plain r 4 := by
  refine .object (fun m hm => ?_) fun _ => ?_
  · have hm : m ∈ e.members := h.subset hm
    simp only [members, List.mem_cons, List.not_mem_nil, or_false] at hm
    rcases hm with rfl | rfl
    · exact .text 3 e.header.name
    · exact e.plain_payload 0
  · exact (h.map Prod.fst).nodup_iff.2 fields_nodup

/-- The events of an object of two members. -/
theorem events_pair (k k' : String) (v v' : Value) :
    (Value.object [(k, v), (k', v')]).events =
      .openObject :: .key (.ok k) :: .colon :: (v.events ++
        .comma :: .key (.ok k') :: .colon :: (v'.events ++ [.closeObject])) := by
  simp [Value.events, Json.memberEvents_eq, Json.separated]

/-- **An envelope is read back from its members**, in either order. -/
theorem ofEvents_members (h : ms.Perm e.members) :
    ofEvents (Value.object ms).events = .ok (e, []) := by
  rcases List.perm_pair.1 h with rfl | rfl
  · -- The header comes first, so the payload is read from its events.
    have hheader : ∀ rest,
        Progress.nothing.member true ((Value.text e.header.name).events ++ rest) =
          .ok (.header e.header, rest) := by
      intro rest
      rw [Progress.member, reads_header]
      rfl
    have hpayload : ∀ rest, (Progress.header e.header).member false (e.payload.events ++ rest) =
        .ok (.complete e, rest) := by
      intro rest
      rw [Progress.member, reads_payload]
      rfl
    rw [events_pair, ofEvents, ofMembers_known (Or.inl rfl) rfl (hheader _), ofMembers,
      ofMembers_known (Or.inr rfl) rfl (hpayload _), ofMembers]
    rfl
  · -- The payload comes first, so it is kept as a value until the header is known.
    have hpayload : ∀ rest, Progress.nothing.member false (e.payload.events ++ rest) =
        .ok (.payload e.payload, rest) := by
      intro rest
      rw [Progress.member, reads_kept]
      rfl
    have hheader : ∀ rest,
        (Progress.payload e.payload).member true ((Value.text e.header.name).events ++ rest) =
          .ok (.complete e, rest) := by
      intro rest
      simp only [Progress.member, reads_header e.header rest, ofPayload_payload]
      rfl
    rw [events_pair, ofEvents, ofMembers_known (Or.inr rfl) rfl (hpayload _), ofMembers,
      ofMembers_known (Or.inl rfl) rfl (hheader _), ofMembers]
    rfl

/-- **A packet is read from the members of an envelope**, in either order. -/
theorem packet_reads (h : ms.Perm e.members) :
    Packet.decoder.Reads (Value.object ms).events ⟨e.header.name, e.payload⟩ := by
  have hheader := (Decoder.reads_text e.header.name).map (Sum.inl : String → Packet.Part)
  have hpayload := (reads_kept .replacing e).map (Sum.inr : Value → Packet.Part)
  rw [Value.events, Json.memberEvents_eq]
  rcases List.perm_pair.1 h with rfl | rfl
  · exact Decoder.reads_structured
      (.cons (Decoder.spells rfl hheader) (.cons (Decoder.spells rfl hpayload) .nil))
      fields_nodup rfl
  · exact Decoder.reads_structured
      (.cons (Decoder.spells rfl hpayload) (.cons (Decoder.spells rfl hheader) .nil))
      (List.nodup_reverse.2 fields_nodup) rfl

/-- What the packet means: the chat message, or nothing that the relay knows. -/
theorem open?_members (e : Envelope) :
    (⟨e.header.name, e.payload⟩ : Packet).open? = .ok e.incoming := by
  cases e with
  | chat m =>
    have hchat : Packet.chatOf m.toValue = .ok m := m.ofValue_toValue
    simp only [Packet.open?, header, payload, if_true, hchat, incoming]
  | roster rooms =>
    have hname : Header.roster.name ≠ Header.chat.name := by decide
    exact if_neg hname
  | server s =>
    have hname : Header.server.name ≠ Header.chat.name := by decide
    exact if_neg hname

/-- Both sides read the envelope from its members, whatever their order and the blanks between the
tokens. -/
theorem readFrom_spaced {text : String} (h : ms.Perm e.members)
    (hs : Spaced (Value.object ms).events text.toList) : ReadFrom text e := by
  have hscan : Json.scan text = (Value.object ms).events :=
    Json.scan_spaced (plain_members .kept h) hs
  have hpacket : Packet.decoder.readAll text = .ok ⟨e.header.name, e.payload⟩ :=
    Decoder.readAll_of_reads (packet_reads h) hscan
  refine ⟨?_, ⟨e.header.name, e.payload⟩, ?_, rfl, open?_members e⟩
  · simp only [parse, hscan, ofEvents_members h]
  · simp only [Packet.parse, hpacket]

end Members

section Format

/-- **The format of the push channel.** The text of an envelope is made of its tokens. From every text
of these tokens, with the two members in either order and any blanks around the tokens, both sides
read the envelope. So different envelopes have different texts. No control character stands in them. -/
theorem push_format (e : Envelope) :
    Spaced (Value.object e.members).events e.toJson.toList ∧
    (∀ ms text, List.Perm ms e.members → Spaced (Value.object ms).events text.toList →
      ReadFrom text e) ∧
    ReadFrom e.toJson e ∧
    (∀ c ∈ e.toJson.toList, 0x20 ≤ c.toNat) ∧
    ∀ e' : Envelope, e'.toJson = e.toJson → e' = e := by
  have hread : ∀ e : Envelope, ReadFrom e.toJson e := fun e =>
    readFrom_spaced (List.Perm.refl e.members) (Json.spaced_render e.toValue)
  have hplain : e.toValue.Plain .kept 4 := plain_members .kept (List.Perm.refl e.members)
  refine ⟨Json.spaced_render e.toValue, fun ms text h hs => readFrom_spaced h hs, hread e,
    fun c hc => Json.render_printable hplain hc, fun e' h => ?_⟩
  have hsame : parse e.toJson = .ok e' := h ▸ (hread e').parse
  exact Except.ok.inj (hsame.symm.trans (hread e).parse)

end Format

end Envelope

end VoiceRelay
