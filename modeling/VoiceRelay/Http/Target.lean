import VoiceRelay.Text.Blank

/-!
# Targets of requests

A target is a path, and a query after a question mark. Before the path may stand an origin, a scheme
and a host: `http://host/path`. What follows a number sign is for the reader and belongs to neither.
-/

namespace VoiceRelay
namespace Http

/-- A target, taken apart. -/
structure Target where
  origin : List Char
  path : List Char
  query : Option (List Char)
  deriving DecidableEq, Repr

namespace Target

section Defs

/-- The mark between a scheme and a host. -/
def schemeMark : List Char := "://".toList

/-- Whether a character may stand in a scheme. -/
def isSchemeChar (c : Char) : Bool := c.isAlphanum || c == '+' || c == '-' || c == '.'

/-- A scheme; the two of this protocol are the same in any case. -/
def scheme (cs : List Char) : List Char :=
  let low := cs.map Char.toLower
  if low = "http".toList ∨ low = "https".toList then low else cs

/-- The origin that a text begins with, and what follows it. -/
def splitOrigin (cs : List Char) : List Char × List Char :=
  match Text.cutAt schemeMark [] cs with
  | some (front, back) =>
    if front.all isSchemeChar && !front.isEmpty then
      let host := back.takeWhile fun c => c != '/' && c != '?' && c != '#'
      (scheme front ++ schemeMark ++ host, back.drop host.length)
    else ([], cs)
  | none => ([], cs)

/-- A path and a query, after an origin. -/
def ofPath (origin cs : List Char) : Target :=
  let cs := cs.takeWhile (· != '#')
  let path := cs.takeWhile (· != '?')
  let path := if path.isEmpty ∧ !origin.isEmpty then ['/'] else path
  ⟨origin, path, (Text.splitOnce (· == '?') cs).map Prod.snd⟩

/-- The target that a text stands for. -/
def ofText (text : String) : Target :=
  match text.toList with
  | '/' :: cs => ofPath [] ('/' :: cs)
  | cs => ofPath (splitOrigin cs).1 (splitOrigin cs).2

/-- The same target with a slash at the end of its path. -/
def withSlash (t : Target) : Target := { t with path := t.path ++ ['/'] }

/-- The text of a target. -/
def chars (t : Target) : List Char :=
  t.origin ++ t.path ++ ((t.query.map ('?' :: ·)).getD [])

end Defs

end Target

/-- The path of a target. -/
def pathOf (target : String) : String := .ofList (Target.ofText target).path

end Http
end VoiceRelay
