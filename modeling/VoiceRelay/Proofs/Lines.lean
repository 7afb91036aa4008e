import VoiceRelay.Query.Line
import Mathlib.Data.List.Basic

/-!
# The lines of an octet stream

A buffer is only ever a part of what the other side sends. This module relates what can be taken
off a part to the lines of the whole: `all` cuts a whole stream into lines, `ended` only into those
that a delimiter ends, and `takeLines` takes a number of them off the front.

**Results.**

- `take_append`: a line that a part of the stream holds is the first line of the whole stream.
- `all_take`, `ended_cut`: the lines of a stream are its first line and the lines of the rest.
- `takeLines_succ`: taking one line more takes it off what was left.
- `decode_eq_line`, `decode_eq_more`, `decode_eq_tooLong`: what each answer of the decoder says.
- `length_le_of_cut_none`: what was received without a delimiter is hardly longer than the line that
  it begins.
-/

namespace VoiceRelay
namespace Line

section Defs

/-- The text of a line. -/
def textOf (line : List UInt8) : String := .ofList (Utf8.decode line)

/-- All lines of some octets; what follows the last delimiter is a line, too, if there is any. -/
def all (data : List UInt8) : List (List UInt8) :=
  match _h : take true data with
  | none => []
  | some (line, rest) => line :: all rest
  termination_by data.length
  decreasing_by exact take_length _h

/-- The lines of some octets that a delimiter ends. -/
def ended (data : List UInt8) : List (List UInt8) :=
  match _h : cut data with
  | none => []
  | some (line, rest) => line :: ended rest
  termination_by data.length
  decreasing_by exact cut_length _h

/-- Up to `n` lines taken off the front, and what is left. -/
def takeLines : Nat → List UInt8 → List (List UInt8) × List UInt8
  | 0, data => ([], data)
  | n + 1, data =>
    match take true data with
    | none => ([], data)
    | some (line, rest) => (line :: (takeLines n rest).1, (takeLines n rest).2)

end Defs

section Cuts

theorem cutFrom_append {seen data line rest : List UInt8}
    (h : cutFrom seen data = some (line, rest)) (more : List UInt8) :
    cutFrom seen (data ++ more) = some (line, rest ++ more) := by
  induction data generalizing seen with
  | nil => simp [cutFrom] at h
  | cons a data ih =>
    cases data with
    | nil => simp [cutFrom] at h
    | cons b data =>
      simp only [List.cons_append, cutFrom] at h ⊢
      by_cases hd : a = lf ∧ b = cr
      · rw [if_pos hd] at h ⊢
        simp only [Option.some.injEq, Prod.mk.injEq] at h ⊢
        obtain ⟨rfl, rfl⟩ := h
        exact ⟨rfl, rfl⟩
      · rw [if_neg hd] at h ⊢
        exact ih h

/-- More octets behind a delimiter do not change what stands before it. -/
theorem cut_append {data line rest : List UInt8} (h : cut data = some (line, rest))
    (more : List UInt8) : cut (data ++ more) = some (line, rest ++ more) :=
  cutFrom_append h more

/-- A line is at least as long as what was passed before. -/
theorem cutFrom_length {seen data line rest : List UInt8}
    (h : cutFrom seen data = some (line, rest)) : seen.length ≤ line.length := by
  induction data generalizing seen with
  | nil => simp [cutFrom] at h
  | cons a data ih =>
    cases data with
    | nil => simp [cutFrom] at h
    | cons b data =>
      simp only [cutFrom] at h
      by_cases hd : a = lf ∧ b = cr
      · rw [if_pos hd] at h
        cases h
        simp
      · rw [if_neg hd] at h
        have hle := ih h
        rw [List.length_cons] at hle
        omega

theorem cutFrom_none_append {seen data more line rest : List UInt8}
    (hn : cutFrom seen data = none) (h : cutFrom seen (data ++ more) = some (line, rest)) :
    seen.length + data.length ≤ line.length + 1 := by
  induction data generalizing seen with
  | nil =>
    have hle := cutFrom_length h
    rw [List.length_nil]
    omega
  | cons a data ih =>
    cases data with
    | nil =>
      have hle := cutFrom_length h
      rw [List.length_singleton]
      omega
    | cons b data =>
      simp only [List.cons_append, cutFrom] at hn h
      by_cases hd : a = lf ∧ b = cr
      · rw [if_pos hd] at hn
        cases hn
      · rw [if_neg hd] at hn h
        have hle := ih hn h
        simp only [List.length_cons] at hle ⊢
        omega

theorem cut_nil : cut [] = none := rfl

theorem take_false (data : List UInt8) : take false data = cut data := by
  unfold take
  simp only [Bool.false_eq_true, false_and, if_false]
  cases cut data <;> rfl

theorem take_of_cut {data line rest : List UInt8} (h : cut data = some (line, rest)) :
    take true data = some (line, rest) := by
  unfold take
  cases data with
  | nil => rw [cut_nil] at h; cases h
  | cons a data => simp [h]

theorem take_of_cut_none {data : List UInt8} (hne : data ≠ []) (h : cut data = none) :
    take true data = some (data, []) := by
  unfold take
  cases data with
  | nil => exact absurd rfl hne
  | cons a data => simp [h]

theorem take_nil (ended : Bool) : take ended [] = none := by
  cases ended <;> rfl

theorem take_eq_none {data : List UInt8} : take true data = none ↔ data = [] := by
  constructor
  · intro h
    by_contra hne
    cases hc : cut data with
    | none => rw [take_of_cut_none hne hc] at h; cases h
    | some parts => rw [take_of_cut hc] at h; cases h
  · rintro rfl
    exact take_nil true

/-- **A line of a part is a line of the whole.** What can be taken off some octets while more may
come is the first line of those octets with whatever comes. -/
theorem take_append {data line rest : List UInt8} (h : take false data = some (line, rest))
    (more : List UInt8) : take true (data ++ more) = some (line, rest ++ more) := by
  rw [take_false] at h
  exact take_of_cut (cut_append h more)

/-- Octets without a delimiter are a beginning of the first line, and at most the first half of the
delimiter. -/
theorem length_le_of_cut_none {data more line rest : List UInt8} (hn : cut data = none)
    (h : take true (data ++ more) = some (line, rest)) : data.length ≤ line.length + 1 := by
  cases hc : cut (data ++ more) with
  | none =>
    have hne : data ++ more ≠ [] := by
      intro hnil
      rw [hnil, take_nil] at h
      cases h
    rw [take_of_cut_none hne hc] at h
    cases h
    rw [List.length_append]
    omega
  | some parts =>
    rw [take_of_cut hc] at h
    cases h
    have hle := cutFrom_none_append hn hc
    rw [List.length_nil] at hle
    omega

end Cuts

section Decoding

variable {limit : Nat} {ended : Bool} {buffer : List UInt8}

theorem decode_eq_line {text : String} {rest : List UInt8}
    (h : decode limit ended buffer = .line text rest) :
    ∃ line, text = textOf line ∧ take ended buffer = some (line, rest) := by
  unfold decode at h
  split at h
  · next line rest' ht =>
    simp only [Decoded.line.injEq] at h
    obtain ⟨rfl, rfl⟩ := h
    exact ⟨line, rfl, ht⟩
  · split at h <;> cases h

theorem decode_eq_more (h : decode limit ended buffer = .more) :
    take ended buffer = none ∧ buffer.length ≤ limit := by
  unfold decode at h
  split at h
  · cases h
  · next hnone =>
    split at h
    · cases h
    · next hle => exact ⟨hnone, Nat.le_of_not_lt hle⟩

theorem decode_eq_tooLong {n : Nat} (h : decode limit ended buffer = .tooLong n) :
    take ended buffer = none ∧ limit < buffer.length ∧ n = buffer.length := by
  unfold decode at h
  split at h
  · cases h
  · next hnone =>
    split at h
    · next hlt =>
      cases h
      exact ⟨hnone, hlt, rfl⟩
    · cases h

/-- Octets that begin with a whole line give this line. -/
theorem decode_of_cut {line rest : List UInt8} (limit : Nat) (ended : Bool)
    (h : cut buffer = some (line, rest)) : decode limit ended buffer = .line (textOf line) rest := by
  have htake : take ended buffer = some (line, rest) := by
    cases ended with
    | false => rw [take_false, h]
    | true => exact take_of_cut h
  rw [decode, htake]
  rfl

end Decoding

section Streams

@[simp] theorem all_nil : all [] = [] := by
  rw [all]
  split
  · rfl
  · next h => rw [take_nil] at h; cases h

/-- The lines of a stream are its first line and the lines of the rest. -/
theorem all_take {data line rest : List UInt8} (h : take true data = some (line, rest)) :
    all data = line :: all rest := by
  rw [all]
  split
  · next h' => rw [h] at h'; cases h'
  · next h' =>
    rw [h] at h'
    cases h'
    rfl

theorem ended_cut {data line rest : List UInt8} (h : cut data = some (line, rest)) :
    ended data = line :: ended rest := by
  rw [ended]
  split
  · next h' => rw [h] at h'; cases h'
  · next h' =>
    rw [h] at h'
    cases h'
    rfl

theorem ended_cut_none {data : List UInt8} (h : cut data = none) : ended data = [] := by
  rw [ended]
  split
  · rfl
  · next h' => rw [h] at h'; cases h'

theorem takeLines_succ_of_take {data line rest : List UInt8} (n : Nat)
    (h : take true data = some (line, rest)) :
    takeLines (n + 1) data = (line :: (takeLines n rest).1, (takeLines n rest).2) := by
  simp only [takeLines, h]

/-- Taking one line more takes it off what was left. -/
theorem takeLines_succ {n : Nat} {data line rest : List UInt8}
    (hn : (takeLines n data).1.length = n)
    (h : take true (takeLines n data).2 = some (line, rest)) :
    takeLines (n + 1) data = ((takeLines n data).1 ++ [line], rest) := by
  induction n generalizing data with
  | zero => exact takeLines_succ_of_take 0 h
  | succ n ih =>
    cases ht : take true data with
    | none =>
      simp only [takeLines, ht, List.length_nil] at hn
      cases hn
    | some parts =>
      obtain ⟨first, tail⟩ := parts
      rw [takeLines_succ_of_take n ht] at hn h ⊢
      have hlen : (takeLines n tail).1.length = n := by simpa using hn
      rw [takeLines_succ_of_take (n + 1) ht, ih hlen h]
      rfl

end Streams

end Line
end VoiceRelay
