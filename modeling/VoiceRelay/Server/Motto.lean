import VoiceRelay.Disk.Tree
import VoiceRelay.Text.Utf8

/-!
# Mottos

A file of mottos, one on each line. Lines without anything but blanks are left out, and a file
without any motto is a fault. Which motto is shown is left to chance.

**Results.**

- `ofText?_ne_nil`: a list of mottos that was read is not empty.
-/

namespace VoiceRelay
namespace Motto

section Defs

/-- A line without the return character before its end. -/
def dropReturn (l : List Char) : List Char :=
  if l.getLast? = some '\r' then l.dropLast else l

/-- The lines of a text; a line feed ends a line, with a return character before it or not. -/
def lines (cs : List Char) : List (List Char) :=
  let ps := Text.pieces (· == '\n') cs
  ps.dropLast.map dropReturn ++ (ps.getLast?.toList.filter fun l => !l.isEmpty)

/-- The mottos of a text, if there are any. -/
def ofText? (cs : List Char) : Option (List String) :=
  match (lines cs).filter fun l => !(Text.trim l).isEmpty with
  | [] => none
  | l :: ls => some ((l :: ls).map String.ofList)

/-- Why there are no mottos. -/
inductive Fault
  | unreadable (path why : String)
  | empty (path : String)
  deriving DecidableEq, Repr

/-- The text of a fault, and of what caused it. -/
def Fault.chain : Fault → List String
  | unreadable path why => ["MOTD-Datei '" ++ path ++ "' nicht lesbar", why]
  | empty path => ["MOTD-Datei '" ++ path ++ "' enthaelt keine Zeilen"]

/-- What is said of a file whose octets are no text. -/
def notText : String := "stream did not contain valid UTF-8"

/-- Reads the mottos at a path. -/
def load (d : Disk.Tree) (base : Disk.Place) (path : String) : Except Fault (List String) :=
  match d.read base path with
  | .error f => .error (.unreadable path f.message)
  | .ok octets =>
    if Utf8.wellFormed octets then
      match ofText? (Utf8.decode octets) with
      | some ms => .ok ms
      | none => .error (.empty path)
    else .error (.unreadable path notText)

/-- A list of mottos that was read is not empty. -/
theorem ofText?_ne_nil {cs : List Char} {ms : List String} (h : ofText? cs = some ms) :
    ms ≠ [] := by
  unfold ofText? at h
  split at h
  · simp at h
  · simp only [Option.some.injEq] at h
    simp [← h]

end Defs

end Motto
end VoiceRelay
