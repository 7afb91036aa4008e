import VoiceRelay.Text.Blank

/-!
# Text notices

After registering for text events the query interface sends lines such as
`notifytextmessage targetmode=3 msg=hello\sworld invokerid=5 invokername=Max`. A notice whose
sender has the id 0 comes from the relay itself and carries nothing. Of any other the text between
`msg=` and the next `invokerid=` is taken, cut at the escaped spaces, and each piece is followed by
one space.
-/

namespace VoiceRelay
namespace Notice

section Defs

/-- Marks a notice that the relay caused itself. -/
def ownMark : List Char := "invokerid=0".toList

/-- Stands before the text of the message. -/
def textMark : List Char := "msg=".toList

/-- Stands before the id of the sender, after the text. -/
def senderMark : List Char := "invokerid=".toList

/-- The escaped space. -/
def spaceMark : List Char := ['\\', 's']

/-- Replaces each escaped space, searched from the left, by a space and adds one at the end. -/
def spaced : List Char → List Char
  | '\\' :: 's' :: rest => ' ' :: spaced rest
  | c :: rest => c :: spaced rest
  | [] => [' ']

/-- The text that a notice carries, if it carries any. -/
def textOfChars (line : List Char) : Option (List Char) :=
  match Text.cutAt ownMark [] line with
  | some _ => none
  | none => do
    let (_, afterMark) ← Text.cutAt textMark [] line
    let (raw, _) ← Text.cutAt senderMark [] afterMark
    return spaced (Text.trimEnd raw)

/-- The text that a notice carries, if it carries any. -/
def text? (line : String) : Option String := (textOfChars line.toList).map .ofList

end Defs

end Notice
end VoiceRelay
