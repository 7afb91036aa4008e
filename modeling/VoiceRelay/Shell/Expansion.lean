import VoiceRelay.Shell.Glob
import VoiceRelay.Shell.Machine
import VoiceRelay.Shell.Sum

/-!
# Expanding words

A word becomes any number of fields: parameters, what commands print and the values of sums are put
in, the results are cut at separators unless they are quoted, and the quotes go. What a command
prints loses the ends of lines behind it.
-/

namespace VoiceRelay
namespace Shell

/-- A part of a word that is being expanded: a character, with whether it is quoted and whether it
was put in; the boundary between two fields; or a mark that keeps a field that may be empty. -/
inductive Item
  | char (c : Char) (quoted putIn : Bool)
  | boundary
  | mark
  deriving DecidableEq, Repr

namespace Expansion

/-- Runs a command and gives what it prints. -/
abbrev Capture := Command → Machine → Octets × Machine

/-- The parts of a word, and the shell after it; or what is wrong. -/
abbrev Result := Except Octets (List Item) × Machine

section Parts

/-- A text that is put in. -/
def putIn (quoted : Bool) (cs : Octets) : List Item :=
  (if quoted then [.mark] else []) ++ cs.map fun c => .char c quoted true

/-- Texts that are put in as fields of their own. -/
def putFields (quoted : Bool) : List Octets → List Item
  | [] => []
  | [a] => putIn quoted a
  | a :: b :: r => putIn quoted a ++ .boundary :: putFields quoted (b :: r)

/-- The same parts with what is not quoted put in. -/
def asPutIn (items : List Item) : List Item :=
  items.map fun
    | .char c q _ => .char c q true
    | i => i

/-- The text of parts; a boundary is a blank. -/
def textOf (items : List Item) : Octets :=
  items.filterMap fun
    | .char c _ _ => some c
    | .boundary => some ' '
    | .mark => none

/-- Parts as a pattern. -/
def markedOf (items : List Item) : List Glob.Marked :=
  items.filterMap fun
    | .char c q _ => some (c, q)
    | _ => none

/-- The value of a parameter as parts. -/
def plain (m : Machine) (quoted : Bool) (name : Octets) : Option (List Item) :=
  if name = ['@'] then some (putFields quoted m.arguments)
  else if name = ['*'] then
    if quoted then
      let between := (m.separators.head?.map fun c => [c]).getD []
      some (putIn true (Text.join between m.arguments))
    else some (putFields false m.arguments)
  else (m.value name).map (putIn quoted)

/-- What a command printed, as it is put in. -/
def printed (text : Octets) : Octets :=
  ((text.reverse.dropWhile (· == '\n')).reverse).filter (· != '\x00')

end Parts

section Expanding

/-- A parameter taken in some way; `word` expands what goes with it. -/
def parameter (quoted : Bool) (name : Octets) (taking : Taking)
    (word : Machine → Result) (m : Machine) : Result :=
  let found := plain m quoted name
  let counts (orEmpty : Bool) : Bool := found.any fun is => !orEmpty || !(textOf is).isEmpty
  let onWord (f : List Item → Machine → Result) : Result :=
    match word m with
    | (.ok is, m) => f is m
    | r => r
  let withPattern (drop : List Glob.Atom → Octets → Octets) : Result :=
    onWord fun is m =>
      (.ok (putIn quoted (drop (Glob.ofMarked (markedOf is)) (textOf (found.getD [])))), m)
  let unset : Result := (.error (name ++ ": parameter not set".toList), m)
  match taking with
  | .plain =>
    match found with
    | some is => (.ok is, m)
    | none => if m.stopOnUnset then unset else (.ok (putIn quoted []), m)
  | .length =>
    if name = ['@'] ∨ name = ['*'] then (.ok (putIn quoted (Decimal.digits m.arguments.length)), m)
    else
      match found with
      | some is => (.ok (putIn quoted (Decimal.digits (textOf is).length)), m)
      | none => if m.stopOnUnset then unset else (.ok (putIn quoted ['0']), m)
  | .default orEmpty =>
    if counts orEmpty then (.ok (found.getD []), m)
    else onWord fun is m => (.ok (putIn quoted [] ++ asPutIn is), m)
  | .instead orEmpty =>
    if counts orEmpty then onWord fun is m => (.ok (putIn quoted [] ++ asPutIn is), m)
    else (.ok (putIn quoted []), m)
  | .assign orEmpty =>
    if counts orEmpty then (.ok (found.getD []), m)
    else onWord fun is m => (.ok (putIn quoted (textOf is)), m.set name (textOf is))
  | .complain orEmpty =>
    if counts orEmpty then (.ok (found.getD []), m)
    else
      onWord fun is m =>
        let what := if is.isEmpty then "parameter not set".toList else textOf is
        (.error (name ++ ": ".toList ++ what), m)
  | .dropFront longest => withPattern (Glob.dropFront longest)
  | .dropBack longest => withPattern (Glob.dropBack longest)

/-- The parts of a word; words within words are expanded to some depth. -/
def items (capture : Capture) : Nat → Word → Machine → Result
  | 0, _, m => (.ok [], m)
  | n + 1, w, m =>
    w.foldl (fun (r : Result) p =>
      match r with
      | (.error e, m) => (.error e, m)
      | (.ok front, m) =>
        let (back, m) : Result := match p with
          | .text quoted cs =>
            (.ok ((if quoted then [.mark] else []) ++ cs.map fun c => .char c quoted false), m)
          | .parameter quoted name taking word =>
            parameter quoted name taking (items capture n word) m
          | .output quoted c =>
            let (text, m) := capture c m
            (.ok (putIn quoted (printed text)), m)
          | .sum quoted word =>
            match items capture n word m with
            | (.ok is, m) =>
              match Sum.evaluate (textOf is) m.parameters with
              | some (v, ps) => (.ok (putIn quoted (Sum.text v)), { m with parameters := ps })
              | none => (.error "arithmetic expression: expecting primary".toList, m)
            | r => r
        match back with
        | .ok back => (.ok (front ++ back), m)
        | .error e => (.error e, m)) (.ok [], m)

end Expanding

section Fields

/-- How far a word was cut: the field so far, backwards, whether a separator that is a blank ended
the one before, and the fields before, backwards. -/
structure Cutting where
  field : Option Octets
  afterBlank : Bool
  fields : List Octets

/-- The field so far is complete. -/
def Cutting.close (s : Cutting) : Cutting :=
  match s.field with
  | some cs => ⟨none, true, cs.reverse :: s.fields⟩
  | none => s

/-- What one part does. -/
def Cutting.step (separators : Octets) (s : Cutting) : Item → Cutting
  | .mark => { s with field := some (s.field.getD []) }
  | .boundary => { s.close with afterBlank := false }
  | .char c quoted put =>
    if !quoted ∧ put ∧ separators.contains c then
      if c = ' ' ∨ c = '\t' ∨ c = '\n' then s.close
      else if s.field.isSome then { s.close with afterBlank := false }
      else if s.afterBlank then { s with afterBlank := false }
      else { s with fields := [] :: s.fields }
    else { s with field := some (c :: s.field.getD []), afterBlank := false }

/-- The fields of parts. -/
def fieldsOf (separators : Octets) (items : List Item) : List Octets :=
  (items.foldl (Cutting.step separators) ⟨none, false, []⟩).close.fields.reverse

/-- How deep words within words go. -/
def depth : Nat := 64

/-- The fields of words. -/
def fields (capture : Capture) (ws : List Word) (m : Machine) :
    Except Octets (List Octets) × Machine :=
  ws.foldl (fun (r : Except Octets (List Octets) × Machine) w =>
    match r with
    | (.error e, m) => (.error e, m)
    | (.ok fs, m) =>
      match items capture depth w m with
      | (.ok is, m) => (.ok (fs ++ fieldsOf m.separators is), m)
      | (.error e, m) => (.error e, m)) (.ok [], m)

/-- The text of a word that is not cut into fields. -/
def text (capture : Capture) (w : Word) (m : Machine) : Except Octets Octets × Machine :=
  match items capture depth w m with
  | (.ok is, m) => (.ok (textOf is), m)
  | (.error e, m) => (.error e, m)

end Fields

end Expansion
end Shell
end VoiceRelay
