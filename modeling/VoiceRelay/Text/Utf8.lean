/-!
# UTF-8

Text as octets, and octets as text. `encode` is the encoding of a character list; `decode` reads
any octets at all: each maximal prefix of an ill-formed sequence becomes one U+FFFD, and reading
goes on with the octet that broke the sequence.

**Design.** The reader is a machine with one octet per step. Its state `Partial` says how many
continuation octets are still missing, in which range the next one must lie, and which scalar
value the octets so far spell.

**Results.**

- `decodeFrom_append`: reading may be interrupted anywhere.
- `step_ascii`: an octet below 80₁₆ ends whatever came before it and stands for itself.
-/

namespace VoiceRelay
namespace Utf8

section Defs

/-- The encoding of a character list. -/
def encode (cs : List Char) : List UInt8 := cs.flatMap String.utf8EncodeChar

/-- An unfinished sequence: `missing + 1` octets are to come, the next between `low` and `high`,
and the octets so far spell `value`. -/
structure Partial where
  missing : Nat
  low : Nat
  high : Nat
  value : Nat
  deriving DecidableEq, Repr

/-- The character that stands for an ill-formed sequence. -/
def replacement : Char := '\uFFFD'

/-- What the first octet of a sequence announces: a whole character, a longer sequence, or
nothing well-formed. -/
def lead (b : UInt8) : Option Partial × List Char :=
  let n := b.toNat
  if n < 0x80 then (none, [Char.ofNat n])
  else if n < 0xC2 then (none, [replacement])
  else if n < 0xE0 then (some ⟨0, 0x80, 0xBF, n - 0xC0⟩, [])
  else if n = 0xE0 then (some ⟨1, 0xA0, 0xBF, 0⟩, [])
  else if n = 0xED then (some ⟨1, 0x80, 0x9F, 0xD⟩, [])
  else if n < 0xF0 then (some ⟨1, 0x80, 0xBF, n - 0xE0⟩, [])
  else if n = 0xF0 then (some ⟨2, 0x90, 0xBF, 0⟩, [])
  else if n < 0xF4 then (some ⟨2, 0x80, 0xBF, n - 0xF0⟩, [])
  else if n = 0xF4 then (some ⟨2, 0x80, 0x8F, 4⟩, [])
  else (none, [replacement])

/-- One octet: the next state and the characters it completes. -/
def step (s : Option Partial) (b : UInt8) : Option Partial × List Char :=
  match s with
  | none => lead b
  | some p =>
    let n := b.toNat
    if p.low ≤ n ∧ n ≤ p.high then
      let value := p.value * 64 + (n - 0x80)
      match p.missing with
      | 0 => (none, [Char.ofNat value])
      | more + 1 => (some ⟨more, 0x80, 0xBF, value⟩, [])
    else
      let (next, out) := lead b
      (next, replacement :: out)

/-- What an unfinished sequence at the end of the octets becomes. -/
def flush : Option Partial → List Char
  | none => []
  | some _ => [replacement]

/-- Reads octets from a state; `done` holds, last first, the characters read before. -/
def decodeFrom (s : Option Partial) (done : List Char) : List UInt8 → List Char
  | [] => done.reverse ++ flush s
  | b :: rest =>
    let (next, out) := step s b
    decodeFrom next (out.reverse ++ done) rest

/-- The text of any octets, ill-formed sequences replaced. -/
def decode (bytes : List UInt8) : List Char := decodeFrom none [] bytes

/-- The state after some octets. -/
def stateAfter (s : Option Partial) (bytes : List UInt8) : Option Partial :=
  bytes.foldl (fun s b => (step s b).1) s

/-- Whether the octets are well-formed UTF-8. -/
def wellFormed (bytes : List UInt8) : Bool := encode (decode bytes) == bytes

end Defs

section Laws

theorem decodeFrom_done (s : Option Partial) (done : List Char) (bytes : List UInt8) :
    decodeFrom s done bytes = done.reverse ++ decodeFrom s [] bytes := by
  induction bytes generalizing s done with
  | nil => simp [decodeFrom]
  | cons b rest ih =>
    simp only [decodeFrom]
    rw [ih, ih (step s b).1 ((step s b).2.reverse ++ [])]
    simp

/-- **Reading may be interrupted anywhere.** The characters completed before the interruption
stay, and the rest is read from the state reached. -/
theorem decodeFrom_append (s : Option Partial) (a b : List UInt8) :
    ∃ done, decodeFrom s [] (a ++ b) = done ++ decodeFrom (stateAfter s a) [] b ∧
      decodeFrom s [] a = done ++ flush (stateAfter s a) := by
  induction a generalizing s with
  | nil => exact ⟨[], by simp [stateAfter], by simp [decodeFrom, stateAfter]⟩
  | cons c a ih =>
    obtain ⟨done, h₁, h₂⟩ := ih (step s c).1
    refine ⟨(step s c).2 ++ done, ?_, ?_⟩
    · simp only [List.cons_append, decodeFrom]
      rw [decodeFrom_done, h₁]
      simp [stateAfter]
    · simp only [decodeFrom]
      rw [decodeFrom_done, h₂]
      simp [stateAfter]

/-- An octet below 80₁₆ ends whatever came before it and stands for itself. -/
theorem step_ascii (s : Option Partial) (b : UInt8) (hb : b.toNat < 0x80)
    (hs : ∀ p, s = some p → 0x80 ≤ p.low) :
    step s b = (none, flush s ++ [Char.ofNat b.toNat]) := by
  cases s with
  | none => simp [step, lead, hb, flush]
  | some p =>
    have hp : 0x80 ≤ p.low := hs p rfl
    have : ¬ (p.low ≤ b.toNat ∧ b.toNat ≤ p.high) := by omega
    simp [step, this, lead, hb, flush]

end Laws

end Utf8
end VoiceRelay
