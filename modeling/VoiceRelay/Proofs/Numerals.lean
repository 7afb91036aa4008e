import VoiceRelay.Text.Decimal
import Mathlib.Data.Nat.Digits.Defs
import Mathlib.Data.List.Induction

/-!
# Which numerals are read

The text of a number is at least one ASCII digit, with one plus sign in front or none. The last digit counts
ones, the one before it tens, and so on; so zeros in front change nothing, and there may be any number of
digits. `Decimal.read?` reads exactly the texts of the numbers that stay below its bound.

**Design.** `Decimal.Spells` says with the positional value of a list of digits which number a text is the
text of. `Decimal.readStepwise` is the reader that a machine word forces: it goes through the digits and
gives up at the first one that takes the number to the bound.

**Results.**

- `value_eq_ofDigits`: the number of a string of digits is its positional value.
- `read?_eq_some_iff`, `read?_eq_none_iff`: which texts are read, and as what.
- `read?_eq_readStepwise`: looking at every digit and looking at the whole number come to the same.
-/

namespace VoiceRelay
namespace Decimal

section Defs

/-- A text that spells a number: perhaps a plus sign, then one or more digits, the last one for the ones. -/
def Spells (cs : List Char) (n : Nat) : Prop :=
  ∃ ds, (cs = ds ∨ cs = '+' :: ds) ∧ ds ≠ [] ∧ (∀ c ∈ ds, isDigit c = true) ∧
    n = Nat.ofDigits 10 (ds.reverse.map digitValue)

/-- Takes one more digit, unless the number does not stay below the bound. -/
def push (bound n : Nat) (c : Char) : Option Nat :=
  if isDigit c = true ∧ n * 10 + digitValue c < bound then some (n * 10 + digitValue c) else none

/-- The number below `bound` that the text spells, looked at after each digit. -/
def readStepwise (bound : Nat) (cs : List Char) : Option Nat :=
  if unsigned cs = [] then none else (unsigned cs).foldlM (push bound) 0

end Defs

section Laws

variable {bound n : Nat} {cs : List Char}

theorem valueFrom_cons (start : Nat) (c : Char) (cs : List Char) :
    valueFrom start (c :: cs) = valueFrom (start * 10 + digitValue c) cs :=
  List.foldl_cons ..

/-- **The number of a string of digits is its positional value.** -/
theorem value_eq_ofDigits (ds : List Char) : value ds = Nat.ofDigits 10 (ds.reverse.map digitValue) := by
  induction ds using List.reverseRecOn with
  | nil => rfl
  | append_singleton ds c ih =>
    have hlast : value (ds ++ [c]) = value ds * 10 + digitValue c := value_append ds [c]
    rw [hlast, ih, List.reverse_append, List.reverse_singleton, List.singleton_append, List.map_cons,
      Nat.ofDigits_cons, Nat.add_comm, Nat.mul_comm]

/-- A digit is no sign, so what has no sign in front stands as it is. -/
theorem unsigned_of_digits {ds : List Char} (h : ∀ c ∈ ds, isDigit c = true) : unsigned ds = ds := by
  unfold unsigned
  split
  · next rest => exact absurd (h '+' List.mem_cons_self) (by decide)
  · rfl

theorem spells_iff :
    Spells cs n ↔
      unsigned cs ≠ [] ∧ (∀ c ∈ unsigned cs, isDigit c = true) ∧ value (unsigned cs) = n := by
  constructor
  · rintro ⟨ds, hcs, hne, hdigits, rfl⟩
    have hunsigned : unsigned cs = ds := by
      rcases hcs with rfl | rfl
      · exact unsigned_of_digits hdigits
      · rfl
    rw [hunsigned, value_eq_ofDigits]
    exact ⟨hne, hdigits, rfl⟩
  · rintro ⟨hne, hdigits, hvalue⟩
    refine ⟨unsigned cs, ?_, hne, hdigits, by rw [← hvalue, value_eq_ofDigits]⟩
    unfold unsigned
    split
    · exact Or.inr rfl
    · exact Or.inl rfl

/-- **A numeral is read as a number if and only if it spells this number and the number stays below the
bound.** -/
theorem read?_eq_some_iff : read? bound cs = some n ↔ Spells cs n ∧ n < bound := by
  simp only [read?, spells_iff, List.all_eq_true, Option.ite_none_right_eq_some, Option.some.injEq]
  constructor
  · rintro ⟨⟨hne, hdigits, hbound⟩, hvalue⟩
    exact ⟨⟨hne, hdigits, hvalue⟩, hvalue ▸ hbound⟩
  · rintro ⟨⟨hne, hdigits, hvalue⟩, hbound⟩
    exact ⟨⟨hne, hdigits, hvalue ▸ hbound⟩, hvalue⟩

theorem read?_eq_none_iff : read? bound cs = none ↔ ∀ n < bound, ¬ Spells cs n := by
  rw [Option.eq_none_iff_forall_ne_some]
  refine forall_congr' fun n => (not_congr read?_eq_some_iff).trans ?_
  exact ⟨fun h hbound hspells => h ⟨hspells, hbound⟩, fun h hboth => h hboth.2 hboth.1⟩

/-- A further digit makes no number smaller. -/
theorem le_valueFrom (start : Nat) (ds : List Char) : start ≤ valueFrom start ds := by
  induction ds generalizing start with
  | nil => exact Nat.le_refl start
  | cons c ds ih =>
    have hrest := ih (start * 10 + digitValue c)
    rw [valueFrom_cons]
    omega

/-- Taking digits one by one, from a number that is below the bound. -/
theorem foldlM_push {start : Nat} (h : start < bound) (ds : List Char) :
    ds.foldlM (push bound) start =
      if ds.all isDigit ∧ valueFrom start ds < bound then some (valueFrom start ds) else none := by
  induction ds generalizing start with
  | nil => exact (if_pos ⟨rfl, h⟩).symm
  | cons c ds ih =>
    have hgrows := le_valueFrom (start * 10 + digitValue c) ds
    rw [List.foldlM_cons, valueFrom_cons, List.all_cons, push]
    by_cases hdigit : isDigit c = true
    · by_cases hnext : start * 10 + digitValue c < bound
      · rw [if_pos ⟨hdigit, hnext⟩, Option.bind_eq_bind, Option.bind_some, ih hnext, hdigit,
          Bool.true_and]
      · -- The number has reached the bound, and the digits that follow do not take it back.
        rw [if_neg (fun hboth => hnext hboth.2), if_neg (fun hboth => by omega)]
        rfl
    · rw [if_neg (fun hboth => hdigit hboth.1), if_neg (by simp [hdigit])]
      rfl

/-- **Looking at the number after each digit refuses no numeral that is read as a whole**, and reads none that
is refused as a whole. -/
theorem read?_eq_readStepwise (hbound : 0 < bound) (cs : List Char) :
    read? bound cs = readStepwise bound cs := by
  unfold read? readStepwise
  by_cases hnone : unsigned cs = []
  · simp [hnone]
  · rw [if_neg hnone, foldlM_push hbound]
    simp [hnone, value]

end Laws

end Decimal
end VoiceRelay
