/-!
# Blanks and words

A blank is a character with the Unicode property White_Space. Everything here works on lists of
characters: cutting at chosen characters, trimming blanks at either end, and the words of a text.

**Results.**

- `pieces_ne_nil`: a cut always leaves at least one piece.
- `pieces_append`: the pieces of a text around one cutting character.
-/

namespace VoiceRelay
namespace Text

section Defs

/-- The characters with the Unicode property White_Space. -/
def isBlank (c : Char) : Bool :=
  let n := c.toNat
  (0x09 ≤ n && n ≤ 0x0D) || n == 0x20 || n == 0x85 || n == 0xA0 || n == 0x1680 ||
    (0x2000 ≤ n && n ≤ 0x200A) || n == 0x2028 || n == 0x2029 || n == 0x202F || n == 0x205F ||
    n == 0x3000

/-- The text without the blanks it begins with. -/
def trimStart (cs : List Char) : List Char := cs.dropWhile isBlank

/-- The text without the blanks it ends in. -/
def trimEnd (cs : List Char) : List Char := (cs.reverse.dropWhile isBlank).reverse

/-- The text without the blanks at both ends. -/
def trim (cs : List Char) : List Char := trimEnd (trimStart cs)

/-- Puts one more element in front of the first piece. -/
def extendFirst {α : Type} (a : α) : List (List α) → List (List α)
  | [] => [[a]]
  | p :: ps => (a :: p) :: ps

/-- The pieces between the elements that `cut` picks out; the cutting elements are dropped. -/
def pieces {α : Type} (cut : α → Bool) (l : List α) : List (List α) :=
  l.foldr (fun a ps => if cut a then [] :: ps else extendFirst a ps) [[]]

/-- The words of a text: its longest runs without a blank. -/
def words (cs : List Char) : List (List Char) :=
  (pieces isBlank cs).filter (fun w => !w.isEmpty)

/-- What stands before and after the first element that `cut` picks out, if there is one. -/
def splitOnce {α : Type} (cut : α → Bool) (l : List α) : Option (List α × List α) :=
  match l.dropWhile (fun a => !cut a) with
  | [] => none
  | _ :: rest => some (l.takeWhile (fun a => !cut a), rest)

/-- The text after `lead`, if it begins with `lead`. -/
def dropLead? {α : Type} [DecidableEq α] : (lead l : List α) → Option (List α)
  | [], l => some l
  | _ :: _, [] => none
  | p :: ps, a :: l => if p = a then dropLead? ps l else none

/-- What stands before and after the first place where `mark` occurs; `seen` holds, last first,
what has been passed already. -/
def cutAt {α : Type} [DecidableEq α] (mark : List α) (seen : List α) :
    List α → Option (List α × List α)
  | [] => if mark.isEmpty then some (seen.reverse, []) else none
  | a :: l =>
    match dropLead? mark (a :: l) with
    | some rest => some (seen.reverse, rest)
    | none => cutAt mark (a :: seen) l

/-- Joins texts with a separator between neighbours. -/
def join {α : Type} (separator : List α) : List (List α) → List α
  | [] => []
  | [w] => w
  | w :: v :: ws => w ++ separator ++ join separator (v :: ws)

end Defs

section Laws

variable {α : Type} (cut : α → Bool)

theorem pieces_nil : pieces cut [] = [[]] := rfl

theorem pieces_cons (a : α) (l : List α) :
    pieces cut (a :: l) =
      if cut a then [] :: pieces cut l else extendFirst a (pieces cut l) := rfl

theorem extendFirst_ne_nil (a : α) (ps : List (List α)) : extendFirst a ps ≠ [] := by
  cases ps <;> simp [extendFirst]

theorem pieces_ne_nil (l : List α) : pieces cut l ≠ [] := by
  cases l with
  | nil => simp [pieces_nil]
  | cons a l =>
    rw [pieces_cons]
    split
    · simp
    · exact extendFirst_ne_nil a _

/-- A stretch without a cutting element goes to the first piece. -/
theorem pieces_append (w : List α) (h : ∀ a ∈ w, cut a = false) (l : List α) :
    pieces cut (w ++ l) = w.foldr extendFirst (pieces cut l) := by
  induction w with
  | nil => rfl
  | cons a w ih =>
    have ha : cut a = false := h a (by simp)
    have hw : ∀ b ∈ w, cut b = false := fun b hb => h b (by simp [hb])
    simp [pieces_cons, ha, ih hw]

end Laws

end Text
end VoiceRelay
