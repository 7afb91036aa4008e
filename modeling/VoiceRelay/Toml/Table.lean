/-!
# Values and tables of TOML

A document is a table of values. Tables come about in four ways: by a header of their own, as the
part above another header, by a dotted key, or inline within a value. How a table came about decides
what may still be added to it; a key is never given twice.

**Rules.**

- A header opens a table that is new or was only part of the path of another header; the header of
  an array adds a table to an array that was made by such headers.
- A dotted key goes through tables that have no header of their own, and ends in one made by
  dotted keys. An undotted key never ends in one of those.
- An inline table or a plain array is closed once it is written.
-/

namespace VoiceRelay
namespace Toml

/-- How a table came about. -/
inductive Origin
  | header
  | implied
  | dotted
  | inline
  deriving DecidableEq, Repr

/-- A value. Of decimals and moments only the kind is kept. -/
inductive Value
  | text (s : String)
  | integer (n : Int)
  | decimal
  | bool (b : Bool)
  | moment
  | array (items : List Value)
  | table (origin : Origin) (entries : List (String × Value))
  | tables (items : List Value)
  deriving Repr, Inhabited

/-- The entries of a table. -/
abbrev Entries := List (String × Value)

section Defs

/-- Puts a value in the place of another. -/
def replace (key : String) (v : Value) (es : Entries) : Entries :=
  es.map fun e => if e.1 = key then (key, v) else e

/-- Adds an entry; `none` if the key is there. -/
def assign (key : String) (v : Value) (es : Entries) : Option Entries :=
  if (es.lookup key).isSome then none else some (es ++ [(key, v)])

/-- Goes down a path and changes the table at its end; `dotted` tells a dotted key from the path of
a header. A table that is missing is made. -/
def descend (dotted : Bool) (change : Origin → Entries → Option Entries) (origin : Origin) :
    List String → Entries → Option Entries
  | [], es => change origin es
  | key :: path, es =>
    match es.lookup key with
    | none =>
      let made := if dotted then Origin.dotted else .implied
      (descend dotted change made path []).bind fun inner =>
        assign key (.table made inner) es
    | some (.table o inner) =>
      if o = .inline ∨ (dotted ∧ o = .header) then none
      else
        (descend dotted change o path inner).map fun inner => replace key (.table o inner) es
    | some (.tables items) =>
      match items.getLast? with
      | some (.table o inner) =>
        (descend dotted change o path inner).map fun inner =>
          replace key (.tables (items.dropLast ++ [.table o inner])) es
      | _ => none
    | some _ => none

/-- Gives a value to a key, which may be dotted, within a table. -/
def setIn (path : List String) (key : String) (v : Value) (origin : Origin) (es : Entries) :
    Option Entries :=
  descend true
    (fun o inner => if (o == .dotted) == path.isEmpty then none else assign key v inner)
    origin path es

/-- Gives a value to a key in the table that a header opened. -/
def set (header path : List String) (key : String) (v : Value) (root : Entries) :
    Option Entries :=
  descend false (setIn path key v) .header header root

/-- Opens a table by its header. -/
def openTable (path : List String) (key : String) (root : Entries) : Option Entries :=
  descend false
    (fun _ es =>
      match es.lookup key with
      | none => assign key (.table .header []) es
      | some (.table .implied inner) => some (replace key (.table .header inner) es)
      | some _ => none)
    .header path root

/-- Adds a table to an array by its header. -/
def openItem (path : List String) (key : String) (root : Entries) : Option Entries :=
  descend false
    (fun _ es =>
      match es.lookup key with
      | none => assign key (.tables [.table .header []]) es
      | some (.tables items) => some (replace key (.tables (items ++ [.table .header []])) es)
      | some _ => none)
    .header path root

/-- The inline table of some keys and values. -/
def inlineTable (pairs : List (List String × String × Value)) : Option Value :=
  (pairs.foldlM (fun es p => setIn p.1 p.2.1 p.2.2 .inline es) []).map (.table .inline)

end Defs

end Toml
end VoiceRelay
