import VoiceRelay.Disk.Tree
import VoiceRelay.Text.Utf8

/-!
# Journals

A journal is a file to which records are appended, each a text and a line feed. Any number of
callers may write at once: a lock is granted in the order of asking, and whoever holds it writes a
whole record, in as many pieces as the system takes, before the next one begins.

**Design.** `Writer` is the file with its lock. `Move` is what can happen next: a caller asks, the
lock is granted, some octets are written, the lock is released; between two records the file may be
emptied or opened again from outside. A move that is not possible changes nothing.

**Results.**

- `append_content`: a caller that is alone adds its record at the end.
-/

namespace VoiceRelay
namespace Journal

section Records

/-- What is appended: a plain line, a chat message with its time, or the sender of a request. -/
inductive Call
  | line (text : String)
  | message (stamp text : String)
  | request (sender : String)
  deriving DecidableEq, Repr

/-- The text of a record. -/
def Call.text : Call → String
  | line text => text
  | message stamp text => stamp ++ "\t" ++ text
  | request sender => "Request: " ++ sender

/-- The octets of a record: its text and a line feed. -/
def Call.record (c : Call) : List UInt8 := Utf8.encode c.text.toList ++ [10]

@[simp] theorem Call.text_line (text : String) : (line text).text = text := rfl

@[simp] theorem Call.text_message (stamp text : String) :
    (message stamp text).text = stamp ++ "\t" ++ text := rfl

@[simp] theorem Call.text_request (sender : String) : (request sender).text = "Request: " ++ sender := rfl

end Records

section Lock

/-- A caller that waits for the lock. -/
structure Asking where
  caller : Nat
  call : Call
  deriving DecidableEq, Repr

/-- A caller that has the lock, with the octets that it has still to write. -/
structure Holding where
  asking : Asking
  left : List UInt8
  deriving DecidableEq, Repr

/-- The file with its lock. Since it was opened or last emptied, `start` was there first, and
`granted` are the calls that got the lock, newest first. -/
structure Writer where
  start : List UInt8
  content : List UInt8
  waiting : List Asking
  holder : Option Holding
  granted : List Asking
  deriving DecidableEq, Repr

/-- What can happen. -/
inductive Move
  | ask (a : Asking)
  | grant
  | write (count : Nat)
  | release
  | reopen
  | empty
  deriving DecidableEq, Repr

/-- A file that was just opened. -/
def opened (content : List UInt8) : Writer := ⟨content, content, [], none, []⟩

/-- What a move does. -/
def Writer.step (w : Writer) : Move → Writer
  | .ask a => { w with waiting := w.waiting ++ [a] }
  | .grant =>
    match w.holder, w.waiting with
    | none, a :: rest =>
      { w with waiting := rest, holder := some ⟨a, a.call.record⟩, granted := a :: w.granted }
    | _, _ => w
  | .write count =>
    match w.holder with
    | some h =>
      { w with
        content := w.content ++ h.left.take count
        holder := some { h with left := h.left.drop count } }
    | none => w
  | .release =>
    match w.holder with
    | some h => if h.left.isEmpty then { w with holder := none } else w
    | none => w
  | .reopen => w
  | .empty =>
    match w.holder with
    | none => { w with start := [], content := [], granted := [] }
    | some _ => w

/-- Several moves. -/
def Writer.run (w : Writer) (ms : List Move) : Writer := ms.foldl Writer.step w

/-- A caller that is alone appends a record. -/
def Writer.append (w : Writer) (c : Call) : Writer :=
  w.run [.ask ⟨0, c⟩, .grant, .write c.record.length, .release]

/-- A caller that is alone adds its record at the end. -/
theorem append_content (w : Writer) (c : Call) (hw : w.waiting = []) (hh : w.holder = none) :
    (w.append c).content = w.content ++ c.record := by
  simp [Writer.append, Writer.run, Writer.step, hw, hh]

end Lock

section Files

/-- Opens the journal at a path. -/
def openAt (d : Disk.Tree) (base : Disk.Place) (path : String) :
    Except Disk.Fault (Disk.Tree × Disk.Place) := d.openAppend base path

/-- Appends a record to the journal at a place. -/
def appendAt (d : Disk.Tree) (p : Disk.Place) (c : Call) : Except Disk.Fault Disk.Tree :=
  d.append p (((opened []).append c).content)

end Files

end Journal
end VoiceRelay
