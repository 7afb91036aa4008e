import VoiceRelay.Json.Event
import VoiceRelay.Text.Blank
import VoiceRelay.Text.Letter

/-!
# Patterns for the values of fields

A directive of the log may ask for a field whose value matches a regular expression. Here it only
matters whether a text is a regular expression at all: brackets are closed, what is to be repeated
is there, escapes are known, ranges are not empty, and nothing asks for what an automaton without
memory cannot decide.

**Form.** Alternatives, groups with names or flags, sets with ranges and sets inside them, `?`, `*`
and `+` with an optional `?`, anchors, and escapes. A count in braces cannot occur, since a closing
brace ends the field.

**Alphabet.** A pattern works on characters, or on octets where a flag asks for that. Of characters
there are no tables: classes with a name of one letter and comparison in any case exist for octets
only. What works on octets must not take part of a character, so there are no complements of them.

**Design.** The text is read from the left with the groups that are open; fuel bounds the turns, and
every turn takes at least one character.
-/

namespace VoiceRelay
namespace Pattern

section Escapes

/-- What an escape or a plain character stands for. An octet is a character by two digits. -/
inductive Piece
  | letter (c : Char)
  | octet (c : Char)
  | set (negated : Bool)
  | anchor (word : Bool)
  deriving DecidableEq, Repr

/-- The character of a piece. -/
def Piece.letter? : Piece → Option Char
  | letter c | octet c => some c
  | _ => none

/-- What a pattern works on, and whether the case of letters counts. -/
structure Mode where
  characters : Bool
  anyCase : Bool
  deriving DecidableEq, Repr

/-- Whether there is what a piece asks for: words and named classes exist for octets only, and
comparison in any case does as well. -/
def Mode.fits (m : Mode) : Piece → Bool
  | .letter _ => !(m.characters && m.anyCase)
  | .octet c => if m.characters then !m.anyCase else c.toNat < 128
  | .set negated => !m.characters && !negated
  | .anchor word => !word || !m.characters

/-- Whether a piece may be a member of a set. -/
def Mode.admits (m : Mode) (p : Piece) : Bool :=
  m.fits p &&
    match p with
    | .letter c => m.characters || c.toNat < 128
    | .octet _ | .set _ => true
    | .anchor _ => false

/-- The characters that have a meaning of their own. -/
def special : List Char := "\\.+*?()|[]\x7b\x7d^$#&-~".toList

/-- Whether a backslash may stand before a character that has no meaning of its own. -/
def isPlainEscape (c : Char) : Bool :=
  c.toNat < 128 && !c.isAlphanum && c != '<' && c != '>'

/-- The character that some hexadecimal digits denote. -/
def hexLetter? (ds : List Char) : Option Char := do
  let n ← ds.foldlM (fun n d => (Json.hexValue? d).map (n * 16 + ·)) 0
  if n.isValidChar then some (Char.ofNat n) else none

/-- A character by a fixed number of hexadecimal digits. -/
def byNumber (width : Nat) (cs : List Char) : Option (Piece × List Char) :=
  if (cs.take width).length = width then
    (hexLetter? (cs.take width)).map fun c =>
      (if width = 2 then .octet c else .letter c, cs.drop width)
  else none

/-- What stands at the front after a backslash, and what follows it. -/
def escape : List Char → Option (Piece × List Char)
  | [] => none
  | 'x' :: r => byNumber 2 r
  | 'u' :: r => byNumber 4 r
  | 'U' :: r => byNumber 8 r
  | c :: r =>
    if c ∈ ['d', 's', 'w'] then some (.set false, r)
    else if c ∈ ['D', 'S', 'W'] then some (.set true, r)
    else if c ∈ ['b', 'B', '<', '>'] then some (.anchor true, r)
    else if c ∈ ['A', 'z'] then some (.anchor false, r)
    else if c ∈ special ∨ isPlainEscape c then some (.letter c, r)
    else
      match c with
      | 'a' => some (.letter '\x07', r)
      | 'f' => some (.letter '\x0C', r)
      | 't' => some (.letter '\t', r)
      | 'n' => some (.letter '\n', r)
      | 'r' => some (.letter '\r', r)
      | 'v' => some (.letter '\x0B', r)
      | _ => none

end Escapes

section Sets

/-- The beginning of a set after its bracket: whether it is negated, and what follows the characters
that mean themselves only there. -/
def setStart (cs : List Char) : Bool × List Char :=
  let (negated, cs) := match cs with
    | '^' :: r => (true, r)
    | r => (false, r)
  let r := cs.dropWhile (· == '-')
  match r with
  | ']' :: r' => (negated, if r.length = cs.length then r' else r)
  | _ => (negated, r)

/-- The names of the classes that are written with colons. -/
def named : List String :=
  ["alnum", "alpha", "ascii", "blank", "cntrl", "digit", "graph", "lower", "print", "punct",
    "space", "upper", "word", "xdigit"]

/-- Whether a class written with colons is a complement, and what follows it, if one stands at the
front. -/
def afterNamed (cs : List Char) : Option (Bool × List Char) := do
  let r ← Text.dropLead? "[:".toList cs
  let inner := Text.dropLead? ['^'] r
  let (name, rest) ← Text.cutAt ":]".toList [] (inner.getD r)
  if String.ofList name ∈ named then some (inner.isSome, rest) else none

/-- One member of a set. -/
def member : List Char → Option (Piece × List Char)
  | '\\' :: r => escape r
  | c :: r => some (.letter c, r)
  | [] => none

/-- A member or a range of a set, and what follows it. -/
def span (m : Mode) (cs : List Char) : Option (List Char) := do
  let (low, r) ← member cs
  if !m.admits low then none
  match r with
  | '-' :: ']' :: _ | '-' :: '-' :: _ => some r
  | '-' :: r =>
    let (high, r) ← member r
    if m.admits high ∧ (← low.letter?) ≤ (← high.letter?) then some r else none
  | _ => some r

/-- What follows the end of a set that is `depth` brackets deep, in at most so many turns. -/
def setEnd (m : Mode) : Nat → Nat → List Char → Option (List Char)
  | 0, _, _ => none
  | _ + 1, _, [] => none
  | n + 1, depth, ']' :: r => if depth ≤ 1 then some r else setEnd m n (depth - 1) r
  | n + 1, depth, '[' :: r =>
    match afterNamed ('[' :: r) with
    | some (negated, r) =>
      if if m.characters then m.anyCase else negated then none else setEnd m n depth r
    | none =>
      let (negated, body) := setStart r
      if negated && !m.characters then none else setEnd m n (depth + 1) body
  | n + 1, depth, '&' :: '&' :: r => setEnd m n depth r
  | n + 1, depth, '-' :: '-' :: r => setEnd m n depth r
  | n + 1, depth, '~' :: '~' :: r => setEnd m n depth r
  | n + 1, depth, cs => (span m cs).bind (setEnd m n depth)

end Sets

section Groups

/-- What opens with a parenthesis: a group, or flags for what follows. -/
inductive Opening
  | group (name : List Char) (flags : List Char)
  | flags (flags : List Char)
  deriving DecidableEq, Repr

/-- Whether a text names a group. -/
def isName (cs : List Char) : Bool :=
  match cs with
  | [] => false
  | c :: r =>
    (c == '_' || (Letter.isAlphanumeric c && !Decimal.isDigit c)) &&
      r.all fun c => c == '_' || c == '.' || c == '[' || c == ']' || Letter.isAlphanumeric c

/-- The letters of the flags. -/
def flagLetters : List Char := ['i', 'm', 's', 'U', 'u', 'R', 'x', '-']

/-- Whether some flags are in order: known, none twice, and nothing missing after the sign. -/
def flagsFit (fs : List Char) : Bool :=
  fs.all (flagLetters.contains ·) && fs.eraseDups.length == fs.length && fs.getLast? != some '-'

/-- What becomes of a property that a letter among the flags stands for. -/
def flagged (letter : Char) (fs : List Char) (before : Bool) : Bool :=
  if letter ∈ fs then decide (letter ∈ fs.takeWhile (· != '-')) else before

/-- The mode after some flags. -/
def Mode.after (m : Mode) (fs : List Char) : Mode :=
  ⟨flagged 'u' fs m.characters, flagged 'i' fs m.anyCase⟩

/-- A group with a name, whose name starts here. -/
def namedGroup (cs : List Char) : Option (Opening × List Char) := do
  let (name, r) ← Text.splitOnce (· == '>') cs
  if isName name then some (.group name [], r) else none

/-- What stands at the front after a parenthesis, and what follows it. -/
def opening : List Char → Option (Opening × List Char)
  | '?' :: '<' :: '!' :: _ | '?' :: '<' :: '=' :: _ => none
  | '?' :: 'P' :: '<' :: r | '?' :: '<' :: r => namedGroup r
  | '?' :: r =>
    let fs := r.takeWhile fun c => c != ':' && c != ')'
    if !flagsFit fs then none
    else
      match r.drop fs.length with
      | ':' :: r => some (.group [] fs, r)
      | ')' :: r => if fs.isEmpty then none else some (.flags fs, r)
      | _ => none
  | r => some (.group [] [], r)

end Groups

section Reading

/-- How far a pattern has been read: the mode around each open group, innermost first, the mode now,
the names that are taken, and whether something stands here that can be repeated. -/
structure Progress where
  outer : List Mode
  mode : Mode
  names : List (List Char)
  repeatable : Bool
  deriving DecidableEq, Repr

/-- What a parenthesis does; `none` if the name is taken. -/
def Progress.enter (p : Progress) : Opening → Option Progress
  | .flags fs => some { p with mode := p.mode.after fs, repeatable := false }
  | .group name fs =>
    if name ∈ p.names then none
    else
      some
        { outer := p.mode :: p.outer
          mode := p.mode.after fs
          names := if name.isEmpty then p.names else name :: p.names
          repeatable := false }

/-- Whether the rest of a pattern is in order, in at most so many turns. -/
def reads : Nat → Progress → List Char → Bool
  | 0, _, _ => false
  | _ + 1, p, [] => p.outer.isEmpty
  | n + 1, p, c :: r =>
    let item (r : List Char) : Bool := reads n { p with repeatable := true } r
    if c = '(' then
      match opening r with
      | some (o, r) => (p.enter o).any fun p => reads n p r
      | none => false
    else if c = ')' then
      match p.outer with
      | m :: outer => reads n { p with outer := outer, mode := m, repeatable := true } r
      | [] => false
    else if c = '|' then reads n { p with repeatable := false } r
    else if c = '[' then
      let (negated, body) := setStart r
      (p.mode.characters || !negated) && (setEnd p.mode (r.length + 1) 1 body).any item
    else if c = '?' ∨ c = '*' ∨ c = '+' then
      p.repeatable && item ((Text.dropLead? ['?'] r).getD r)
    else if c = '\x7b' then false
    else if c = '\\' then
      match escape r with
      | some (piece, r) => p.mode.fits piece && item r
      | none => false
    else if c = '.' then p.mode.characters && item r
    else if c = '^' ∨ c = '$' then item r
    else p.mode.fits (.letter c) && item r

/-- Whether a text is a pattern. -/
def isPattern (cs : List Char) : Bool := reads (cs.length + 1) ⟨[], ⟨true, false⟩, [], false⟩ cs

end Reading

end Pattern
end VoiceRelay
