import VoiceRelay.Toml.Quotation
import VoiceRelay.Toml.Scalar

/-!
# Documents of TOML

A document is read line by line: blank lines and comments, headers, and keys with their values. A
value may go over several lines only inside brackets or long quotes.

**Bounds.** Brackets and the parts of a key may be nested to a fixed depth, and reading is recursion
on that depth. The loops over items and lines are recursion on a number that the length of the text
bounds, since every turn takes at least one character.
-/

namespace VoiceRelay
namespace Toml

/-- A reader takes something from the front of a text. -/
abbrev Reader (α : Type) := List Char → Option (α × List Char)

section Filler

/-- Whether a character separates words on a line. -/
def isGap (c : Char) : Bool := c == ' ' || c == '\t'

/-- What follows the gap at the front. -/
def skipGap (cs : List Char) : List Char := cs.dropWhile isGap

/-- What follows a comment, which ends before the line does. -/
def skipComment : List Char → List Char
  | '#' :: r => r.dropWhile mayStand
  | cs => cs

/-- What follows the end of the line, before which only a comment may come. -/
def endLine (cs : List Char) : Option (List Char) :=
  match skipComment (skipGap cs) with
  | [] => some []
  | '\n' :: r => some r
  | '\r' :: '\n' :: r => some r
  | _ => none

/-- What follows all gaps, line breaks and comments. -/
def skipFiller (inComment : Bool) : List Char → List Char
  | [] => []
  | '\r' :: '\n' :: r => skipFiller false r
  | '\n' :: r => skipFiller false r
  | c :: r =>
    if inComment then if mayStand c then skipFiller true r else c :: r
    else if isGap c then skipFiller false r
    else if c = '#' then skipFiller true r
    else c :: r

end Filler

section Keys

/-- Whether a character may stand in a key without quotes. -/
def inBareKey (c : Char) : Bool := c.isAlphanum || c == '_' || c == '-'

/-- One part of a key. -/
def keyPart : Reader String
  | '"' :: r => (lineQuotation ('"' :: r)).map fun q => (.ofList q.1, q.2)
  | '\'' :: r => (lineQuotation ('\'' :: r)).map fun q => (.ofList q.1, q.2)
  | cs =>
    let k := cs.takeWhile inBareKey
    if k.isEmpty then none else some (.ofList k, cs.dropWhile inBareKey)

/-- How many parts a key may have, and how deep brackets may be nested. -/
def depthLimit : Nat := 79

/-- A key with its parts, at most so many, and the gaps around them. -/
def keyParts : Nat → Reader (List String)
  | 0, _ => none
  | n + 1, cs => do
    let (part, rest) ← keyPart (skipGap cs)
    match skipGap rest with
    | '.' :: r =>
      let (parts, rest) ← keyParts n r
      return (part :: parts, rest)
    | rest => return ([part], rest)

/-- A key: the tables that it goes through, and its last part. -/
def key : Reader (List String × String) := fun cs => do
  let (parts, rest) ← keyParts depthLimit cs
  let last ← parts.getLast?
  return ((parts.dropLast, last), rest)

end Keys

section Values

/-- The items of an array up to its bracket, in at most so many turns. -/
def items (item : Reader Value) : Nat → Reader (List Value)
  | 0, _ => none
  | n + 1, cs =>
    match skipFiller false cs with
    | ']' :: r => some ([], r)
    | cs => do
      let (v, rest) ← item cs
      match skipFiller false rest with
      | ',' :: r =>
        let (vs, rest) ← items item n r
        return (v :: vs, rest)
      | ']' :: r => return ([v], r)
      | _ => none

/-- A key, the sign of equality and a value. -/
def pair (item : Reader Value) : Reader (List String × String × Value) := fun cs => do
  let ((path, last), rest) ← key cs
  match rest with
  | '=' :: r =>
    let (v, rest) ← item (skipGap r)
    return ((path, last, v), rest)
  | _ => none

/-- The pairs of an inline table up to its brace, in at most so many turns. -/
def pairs (item : Reader Value) : Nat → Reader (List (List String × String × Value))
  | 0, _ => none
  | n + 1, cs => do
    let (p, rest) ← pair item cs
    match skipGap rest with
    | ',' :: r =>
      let (ps, rest) ← pairs item n r
      return (p :: ps, rest)
    | '\x7d' :: r => return ([p], r)
    | _ => none

/-- A value, with brackets nested at most so deep. -/
def value : Nat → Reader Value
  | depth, '[' :: r =>
    match depth with
    | 0 => none
    | d + 1 => (items (value d) (r.length + 1) r).map fun x => (.array x.1, x.2)
  | depth, '\x7b' :: r =>
    match depth with
    | 0 => none
    | d + 1 =>
      match skipGap r with
      | '\x7d' :: rest => (inlineTable []).map (·, rest)
      | cs => do
        let (ps, rest) ← pairs (value d) (cs.length + 1) cs
        return (← inlineTable ps, rest)
  | _, '"' :: r => (quotation ('"' :: r)).map fun q => (.text (.ofList q.1), q.2)
  | _, '\'' :: r => (quotation ('\'' :: r)).map fun q => (.text (.ofList q.1), q.2)
  | _, cs => readWord cs

end Values

section Lines

/-- The tables read so far, and the header that is open. -/
structure Draft where
  root : Entries
  header : List String

/-- One line that is neither blank nor a comment. -/
def line (d : Draft) : Reader Draft
  | '[' :: '[' :: r => do
    let ((path, last), rest) ← key r
    match rest with
    | ']' :: ']' :: r => return (⟨← openItem path last d.root, path ++ [last]⟩, r)
    | _ => none
  | '[' :: r => do
    let ((path, last), rest) ← key r
    match rest with
    | ']' :: r => return (⟨← openTable path last d.root, path ++ [last]⟩, r)
    | _ => none
  | cs => do
    let ((path, last, v), rest) ← pair (value depthLimit) cs
    return ({ d with root := ← set d.header path last v d.root }, rest)

/-- All lines, in at most so many turns. -/
def lines : Nat → Draft → List Char → Option Entries
  | 0, _, _ => none
  | n + 1, d, cs =>
    match skipGap cs with
    | [] => some d.root
    | '\n' :: r => lines n d r
    | '\r' :: '\n' :: r => lines n d r
    | '#' :: r => (endLine ('#' :: r)).bind (lines n d)
    | cs => do
      let (d, rest) ← line d cs
      lines n d (← endLine rest)

/-- What follows the mark that may stand before a document. -/
def afterMark : List Char → List Char
  | '\uFEFF' :: r => r
  | cs => cs

/-- Reads a document. -/
def read? (text : List Char) : Option Entries :=
  lines (text.length + 1) ⟨[], []⟩ (afterMark text)

end Lines

end Toml
end VoiceRelay
