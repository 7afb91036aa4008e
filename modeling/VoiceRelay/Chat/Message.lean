import VoiceRelay.Json.Decoder

/-!
# Chat messages

A chat message has the sender's address, the text and a time, all plain strings; only the text must
be present. It is read from JSON text (`decoder`) or from a value that has been read already
(`ofValue`), in both cases from an object or from an array of the three fields in order.
-/

namespace VoiceRelay

open Json (Value Problem Decoder)

/-- A chat message of a browser. -/
structure ChatMessage where
  ip : String
  message : String
  time : String
  deriving DecidableEq, Repr

namespace ChatMessage

section Defs

/-- The names of the fields, in order. -/
def ipField : String := "ip"
def messageField : String := "message"
def timeField : String := "time"

/-- The message that some members spell; only the text must be there. -/
def ofMembers (members : List (String × String)) : Except Problem ChatMessage :=
  match members.lookup messageField with
  | none => .error .mismatched
  | some text =>
    .ok ⟨(members.lookup ipField).getD "", text, (members.lookup timeField).getD ""⟩

/-- The message that two or three items spell. -/
def ofItems : List String → Except Problem ChatMessage
  | [ip, text] => .ok ⟨ip, text, ""⟩
  | [ip, text, time] => .ok ⟨ip, text, time⟩
  | _ => .error .mismatched

/-- Reads a message from JSON text. -/
def decoder : Decoder ChatMessage :=
  .structured [(ipField, .text), (messageField, .text), (timeField, .text)] ofMembers ofItems

/-- A value that must be a string. -/
def textOf : Value → Except Problem String
  | .text s => .ok s
  | _ => .error .mismatched

/-- The known members of an object, each of which must be a string and come once. -/
def knownMembers (seen : List (String × String)) :
    List (String × Value) → Except Problem (List (String × String))
  | [] => .ok seen
  | (k, v) :: ms =>
    if k = ipField ∨ k = messageField ∨ k = timeField then
      if seen.any (fun s => s.1 == k) then .error .mismatched
      else
        match textOf v with
        | .error p => .error p
        | .ok s => knownMembers ((k, s) :: seen) ms
    else knownMembers seen ms

/-- The message that a value spells. -/
def ofValue : Value → Except Problem ChatMessage
  | .object members => knownMembers [] members >>= ofMembers
  | .array items => items.mapM textOf >>= ofItems
  | _ => .error .mismatched

/-- The message as a value. -/
def toValue (m : ChatMessage) : Value :=
  .object [(ipField, .text m.ip), (messageField, .text m.message), (timeField, .text m.time)]

end Defs

end ChatMessage
end VoiceRelay
