/-!
# Decimal numerals

Natural numbers written in decimal. `digits` writes the shortest numeral; `read?` accepts an
optional plus sign followed by one or more ASCII digits, leading zeros allowed, and refuses
numbers that do not stay below a bound.

**Results.**

- `value_append`: a numeral's value is computed digit by digit from the left.
- `digits_isDigit`, `value_digits`: what `digits` writes consists of digits and denotes the number.
- `read?_digits`: writing and reading back.
-/

namespace VoiceRelay
namespace Decimal

section Defs

/-- The ASCII digits. -/
def isDigit (c : Char) : Bool := '0' ≤ c && c ≤ '9'

/-- The number that a digit stands for. -/
def digitValue (c : Char) : Nat := c.toNat - '0'.toNat

/-- The digit that stands for a number below ten. -/
def digit (n : Nat) : Char := Char.ofNat ('0'.toNat + n)

/-- The number that a string of digits denotes, continuing from `start`. -/
def valueFrom (start : Nat) (cs : List Char) : Nat :=
  cs.foldl (fun n c => n * 10 + digitValue c) start

/-- The number that a string of digits denotes. -/
def value (cs : List Char) : Nat := valueFrom 0 cs

/-- The numeral without a sign in front of it. -/
def unsigned : List Char → List Char
  | '+' :: cs => cs
  | cs => cs

/-- The number below `bound` that the text spells. -/
def read? (bound : Nat) (cs : List Char) : Option Nat :=
  let ds := unsigned cs
  if ds ≠ [] ∧ ds.all isDigit ∧ value ds < bound then some (value ds) else none

/-- The shortest numeral of a number. -/
def digits (n : Nat) : List Char :=
  if _h : n < 10 then [digit n] else digits (n / 10) ++ [digit (n % 10)]
  termination_by n
  decreasing_by omega

/-- The numeral filled up with zeros on the left to a least width. -/
def padded (width n : Nat) : List Char :=
  let ds := digits n
  List.replicate (width - ds.length) '0' ++ ds

/-- The bounds of the number types in use. -/
def bound8 : Nat := 0x100
def bound16 : Nat := 0x10000
def bound32 : Nat := 0x100000000
def bound64 : Nat := 0x10000000000000000

/-- A power of ten. -/
def tenTo (n : Nat) : Nat := Nat.pow 10 n

end Defs

section Laws

theorem valueFrom_append (start : Nat) (a b : List Char) :
    valueFrom start (a ++ b) = valueFrom (valueFrom start a) b := by
  simp [valueFrom]

theorem value_append (a b : List Char) : value (a ++ b) = valueFrom (value a) b :=
  valueFrom_append 0 a b

theorem digit_spec (n : Nat) (h : n < 10) : isDigit (digit n) ∧ digitValue (digit n) = n := by
  have : ∀ k : Fin 10, isDigit (digit k) ∧ digitValue (digit k) = k := by decide
  exact this ⟨n, h⟩

theorem digits_isDigit (n : Nat) : ∀ c ∈ digits n, isDigit c := by
  induction n using digits.induct with
  | case1 n h =>
    intro c hc
    rw [digits, dif_pos h] at hc
    obtain rfl : c = digit n := by simpa using hc
    exact (digit_spec n h).1
  | case2 n h ih =>
    intro c hc
    rw [digits, dif_neg h] at hc
    rcases List.mem_append.1 hc with hc | hc
    · exact ih c hc
    · obtain rfl : c = digit (n % 10) := by simpa using hc
      exact (digit_spec _ (Nat.mod_lt _ (by omega))).1

theorem value_digits (n : Nat) : value (digits n) = n := by
  induction n using digits.induct with
  | case1 n h =>
    rw [digits, dif_pos h]
    simpa [value, valueFrom] using (digit_spec n h).2
  | case2 n h ih =>
    rw [digits, dif_neg h, value_append, ih]
    have := (digit_spec (n % 10) (Nat.mod_lt _ (by omega))).2
    simp only [valueFrom, List.foldl_cons, List.foldl_nil, this]
    omega

theorem digits_ne_nil (n : Nat) : digits n ≠ [] := by
  rw [digits]
  split <;> simp

theorem unsigned_digits (n : Nat) : unsigned (digits n) = digits n := by
  unfold unsigned
  split
  · next cs h =>
    have : isDigit '+' := digits_isDigit n '+' (by rw [h]; simp)
    exact absurd this (by decide)
  · rfl

/-- The shortest numeral of a positive number does not begin with a zero. -/
theorem digits_head (n : Nat) (h : n ≠ 0) : (digits n).head? ≠ some '0' := by
  have hdigit : ∀ k < 10, k ≠ 0 → digit k ≠ '0' := by decide
  induction n using digits.induct with
  | case1 n hn =>
    rw [digits, dif_pos hn]
    simpa using hdigit n hn h
  | case2 n hn ih =>
    have hfirst := ih (by omega)
    obtain ⟨c, cs, hcs⟩ := List.exists_cons_of_ne_nil (digits_ne_nil (n / 10))
    rw [hcs] at hfirst
    rw [digits, dif_neg hn, hcs]
    exact hfirst

/-- **Writing and reading back.** -/
theorem read?_digits (bound n : Nat) (h : n < bound) : read? bound (digits n) = some n := by
  have hall : (digits n).all isDigit = true := List.all_eq_true.2 (digits_isDigit n)
  simp [read?, unsigned_digits, digits_ne_nil, hall, value_digits, h]

end Laws

end Decimal
end VoiceRelay
