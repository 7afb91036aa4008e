import VoiceRelay.Shell.Octet

/-!
# Patterns of the shell

A star stands for any text, a question mark for one character, brackets for one of some characters;
quoted characters and all others stand for themselves. An opening bracket that is not closed stands
for itself.
-/

namespace VoiceRelay
namespace Shell
namespace Glob

/-- A character with whether it is quoted. -/
abbrev Marked := Char × Bool

/-- A part of a pattern. -/
inductive Atom
  | char (c : Char)
  | one
  | many
  | oneOf (negated : Bool) (ranges : List (Char × Char))
  deriving DecidableEq, Repr

section Reading

/-- The characters of a class by its name. -/
def classOf (name : String) : List (Char × Char) :=
  match name with
  | "alpha" => [('a', 'z'), ('A', 'Z')]
  | "digit" => [('0', '9')]
  | "alnum" => [('a', 'z'), ('A', 'Z'), ('0', '9')]
  | "upper" => [('A', 'Z')]
  | "lower" => [('a', 'z')]
  | "space" => [(' ', ' '), ('\t', '\r')]
  | "blank" => [(' ', ' '), ('\t', '\t')]
  | "punct" => [('!', '/'), (':', '@'), ('[', '\x60'), ('{', '~')]
  | "xdigit" => [('0', '9'), ('a', 'f'), ('A', 'F')]
  | _ => []

/-- The ranges within brackets up to the closing one, and what follows it; `first` if a closing
bracket would stand for itself. -/
def ranges : Nat → (first : Bool) → List Marked → Option (List (Char × Char) × List Marked)
  | 0, _, _ => none
  | _ + 1, _, [] => none
  | n + 1, first, (c, quoted) :: r =>
    if c = ']' ∧ !quoted ∧ !first then some ([], r)
    else if c = '[' ∧ (r.head?.map Prod.fst) = some ':' then
      let name := (r.tail.map Prod.fst).takeWhile Char.isAlpha
      match r.drop (name.length + 1) with
      | (':', _) :: (']', _) :: rest =>
        (ranges n false rest).map fun p => (classOf (.ofList name) ++ p.1, p.2)
      | _ => (ranges n false r).map fun p => ((c, c) :: p.1, p.2)
    else
      match r with
      | ('-', false) :: (d, q) :: rest =>
        if d = ']' ∧ !q then (ranges n false r).map fun p => ((c, c) :: p.1, p.2)
        else (ranges n false rest).map fun p => ((c, d) :: p.1, p.2)
      | _ => (ranges n false r).map fun p => ((c, c) :: p.1, p.2)

/-- The parts of a pattern, in at most so many turns. -/
def atoms : Nat → List Marked → List Atom
  | 0, _ => []
  | _ + 1, [] => []
  | n + 1, (c, true) :: r => .char c :: atoms n r
  | n + 1, ('*', false) :: r => .many :: atoms n r
  | n + 1, ('?', false) :: r => .one :: atoms n r
  | n + 1, ('[', false) :: r =>
    let negated := r.head? == some ('!', false)
    let inner := if negated then r.tail else r
    match ranges (inner.length + 1) true inner with
    | some (rs, rest) => .oneOf negated rs :: atoms n rest
    | none => .char '[' :: atoms n r
  | n + 1, (c, false) :: r => .char c :: atoms n r

/-- The parts of a pattern. -/
def ofMarked (cs : List Marked) : List Atom := atoms (cs.length + 1) cs

end Reading

section Fitting

/-- Whether a part that stands for one character fits it. -/
def Atom.fitsChar (a : Atom) (c : Char) : Bool :=
  match a with
  | .char d => c == d
  | .one | .many => true
  | .oneOf negated rs => rs.any (fun r => r.1 ≤ c && c ≤ r.2) != negated

/-- The ends of a text, the longest first. -/
def ends : Octets → List Octets
  | [] => [[]]
  | c :: cs => (c :: cs) :: ends cs

/-- Whether a pattern fits a text. -/
def fits : List Atom → Octets → Bool
  | [], cs => cs.isEmpty
  | .many :: as, cs => (ends cs).any (fits as)
  | _ :: _, [] => false
  | a :: as, c :: cs => a.fitsChar c && fits as cs

/-- The text without a front that a pattern fits. -/
def dropFront (longest : Bool) (p : List Atom) (cs : Octets) : Octets :=
  let sizes := List.range (cs.length + 1)
  match (if longest then sizes.reverse else sizes).find? fun k => fits p (cs.take k) with
  | some k => cs.drop k
  | none => cs

/-- The text without an end that a pattern fits. -/
def dropBack (longest : Bool) (p : List Atom) (cs : Octets) : Octets :=
  let sizes := List.range (cs.length + 1)
  match (if longest then sizes else sizes.reverse).find? fun k => fits p (cs.drop k) with
  | some k => cs.take k
  | none => cs

end Fitting

end Glob
end Shell
end VoiceRelay
