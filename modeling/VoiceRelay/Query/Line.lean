import VoiceRelay.Query.Fault
import VoiceRelay.Text.Utf8

/-!
# Lines on the wire

The voice server ends each line with LF CR; the relay ends each command with LF. `cut` takes the
first line off some octets, `decode` adds the limit on the length of a line, `frame` writes a
command. A line that is too long is refused without consuming anything, and so is a command that
holds a line break.

**Design.** `cut` walks the octets once and keeps what it has passed in reverse. `put` is what a call to
write a command does with the octets that wait to be sent.

**Results.**

- `cut_eq`: a cut loses nothing and finds the first delimiter.
- `cut_length`: what is left after a line is shorter.
-/

namespace VoiceRelay
namespace Line

section Defs

def lf : UInt8 := 10
def cr : UInt8 := 13

/-- What ends a line of the voice server. -/
def delimiter : List UInt8 := [lf, cr]

/-- The longest stretch without a delimiter that is accepted by default. -/
def defaultLimit : Nat := 10 * 1024 * 1024

/-- The octets before and after the first delimiter; `seen` holds, last first, octets passed. -/
def cutFrom (seen : List UInt8) : List UInt8 → Option (List UInt8 × List UInt8)
  | a :: b :: rest =>
    if a = lf ∧ b = cr then some (seen.reverse, rest) else cutFrom (a :: seen) (b :: rest)
  | _ => none

/-- The octets before and after the first delimiter. -/
def cut (data : List UInt8) : Option (List UInt8 × List UInt8) := cutFrom [] data

/-- Takes one line off: up to the first delimiter, or, when no more octets will come, all that is
left. `none` asks for more octets. -/
def take (ended : Bool) (data : List UInt8) : Option (List UInt8 × List UInt8) :=
  if ended ∧ data.isEmpty then none
  else match cut data with
    | some parts => some parts
    | none => if ended then some (data, []) else none

/-- What reading a line from a buffer gives. -/
inductive Decoded
  | line (text : String) (rest : List UInt8)
  | more
  | tooLong (length : Nat)
  deriving DecidableEq, Repr

/-- Reads one line from a buffer whose lines may not be longer than `limit`. -/
def decode (limit : Nat) (ended : Bool) (buffer : List UInt8) : Decoded :=
  match take ended buffer with
  | some (line, rest) => .line (.ofList (Utf8.decode line)) rest
  | none => if limit < buffer.length then .tooLong buffer.length else .more

/-- Whether a text holds a line break. -/
def breaks (text : String) : Bool := text.toList.any (fun c => c == '\n' || c == '\r')

/-- A command as octets; `none` if it holds a line break. -/
def frame (command : String) : Option (List UInt8) :=
  if breaks command then none else some (Utf8.encode command.toList ++ [lf])

/-- Puts a command behind the octets that wait to be sent; one that holds a line break is refused before
any of it is put there. -/
def put (out : List UInt8) (command : String) : Option Trouble × List UInt8 :=
  match frame command with
  | none => (some .lineBreak, out)
  | some octets => (none, out ++ octets)

end Defs

section Laws

theorem cutFrom_eq {seen data line rest : List UInt8}
    (h : cutFrom seen data = some (line, rest)) :
    seen.reverse ++ data = line ++ delimiter ++ rest := by
  induction data generalizing seen with
  | nil => simp [cutFrom] at h
  | cons a data ih =>
    cases data with
    | nil => simp [cutFrom] at h
    | cons b data =>
      simp only [cutFrom] at h
      split at h
      · next hd =>
        obtain ⟨rfl, rfl⟩ := hd
        simp only [Option.some.injEq, Prod.mk.injEq] at h
        obtain ⟨rfl, rfl⟩ := h
        simp [delimiter]
      · have := ih h
        simpa using this

/-- A cut loses nothing. -/
theorem cut_eq {data line rest : List UInt8} (h : cut data = some (line, rest)) :
    data = line ++ delimiter ++ rest := by
  simpa using cutFrom_eq h

theorem cut_length {data line rest : List UInt8} (h : cut data = some (line, rest)) :
    rest.length < data.length := by
  rw [cut_eq h]
  simp [delimiter]
  omega

/-- What is left after a line is shorter. -/
theorem take_length {ended : Bool} {data line rest : List UInt8}
    (h : take ended data = some (line, rest)) : rest.length < data.length := by
  unfold take at h
  split at h
  · simp at h
  · next hne =>
    split at h
    · next parts hp =>
      obtain rfl : parts = (line, rest) := by simpa using h
      exact cut_length hp
    · split at h
      · next he =>
        simp only [Option.some.injEq, Prod.mk.injEq] at h
        obtain ⟨rfl, rfl⟩ := h
        cases data with
        | nil => simp [he] at hne
        | cons => simp
      · simp at h

theorem decode_length {limit : Nat} {ended : Bool} {buffer rest : List UInt8} {text : String}
    (h : decode limit ended buffer = .line text rest) : rest.length < buffer.length := by
  unfold decode at h
  split at h
  · next line rest' ht =>
    simp only [Decoded.line.injEq] at h
    obtain ⟨_, rfl⟩ := h
    exact take_length ht
  · split at h <;> simp at h

end Laws

end Line
end VoiceRelay
