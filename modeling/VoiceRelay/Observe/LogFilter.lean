import VoiceRelay.Observe.FieldTest
import VoiceRelay.Observe.LogLevel
import VoiceRelay.Text.Utf8

/-!
# Filters of the log

A filter is a set of directives, separated by commas. A directive gives a level to a target, to the
spans of a name, to events with some field, or to everything: `info`, `hub=debug`, `hub`,
`hub[span]=trace`, `[{field}]=warn`. Of two directives for the same thing the later one counts.

**Reading.** Blanks around a directive are not counted when its parts are found but they shift the
parts by their octets, so a directive with blanks before it is cut at the wrong places.

**Deciding.** For an event the directive with the longest target that the target of the event begins
with decides; of those with one target one for a field that the event has comes first.
-/

namespace VoiceRelay

/-- A directive: what it is for, and its level. -/
structure Directive where
  target : Option (List Char)
  span : Option (List Char)
  field : Option FieldTest
  level : LogLevel
  deriving DecidableEq, Repr

/-- A filter: directives for everything, and directives that depend on spans and fields. -/
structure LogFilter where
  plain : List Directive
  narrow : List Directive
  deriving DecidableEq, Repr

namespace Directive

section Reading

/-- The position of the first octet with a property, from a position on. -/
def seek (p : UInt8 → Bool) (start : Nat) (os : List UInt8) : Option Nat :=
  ((os.drop start).findIdx? p).map (start + ·)

/-- The octet of a character of ASCII. -/
def octet (c : Char) : UInt8 := UInt8.ofNat c.toNat

/-- The text between two positions. -/
def between (os : List UInt8) (a b : Nat) : List Char := Utf8.decode ((os.take b).drop a)

/-- The text from a position on. -/
def textFrom (os : List UInt8) (a : Nat) : List Char := Utf8.decode (os.drop a)

/-- How a directive may begin. -/
def mayBegin (c : Char) : Bool := c == '-' || c == ':' || c == '_' || Letter.isAlphanumeric c

/-- The level after the sign of equality. -/
def levelFrom (os : List UInt8) (start : Nat) : Option LogLevel :=
  if (os.drop start).isEmpty then some .trace else LogLevel.read? (textFrom os start)

/-- What follows a closing bracket. -/
def afterSpan (full trimmed : List UInt8) (d : Directive) (start : Nat) : Option Directive :=
  match trimmed[start]? with
  | none => some d
  | some o =>
    if o = octet '=' then (levelFrom full (start + 1)).map fun l => { d with level := l } else none

/-- What follows an opening bracket. -/
def inSpan (full trimmed : List UInt8) (d : Directive) (start : Nat) : Option Directive := do
  let k ← seek (fun o => o == octet ']' || o == octet '\x7b') start trimmed
  let name := between full start k
  if trimmed[k]? = some (octet ']') then
    afterSpan full trimmed { d with span := some name } (k + 1)
  else
    let e ← seek (· == octet '\x7d') (k + 1) trimmed
    let field := between full (k + 1) e
    if field.isEmpty ∨ trimmed[e + 1]? ≠ some (octet ']') then none
    else
      let test ← FieldTest.read? field
      afterSpan full trimmed
        { d with span := if name.isEmpty then none else some name, field := some test } (e + 2)

/-- Reads a directive. -/
def read? (cs : List Char) : Option Directive :=
  let full := Utf8.encode cs
  let trimmed := Utf8.encode (Text.trim cs)
  let any : Directive := ⟨none, none, none, .trace⟩
  match Text.trim cs with
  | [] => none
  | '[' :: _ => inSpan full trimmed any 1
  | c :: _ =>
    if !mayBegin c then none
    else
      match seek (fun o => o == octet '=' || o == octet '[') c.utf8Size trimmed with
      | none =>
        match LogLevel.read? cs with
        | some l => some { any with level := l }
        | none => some { any with target := some cs }
      | some k =>
        let d := { any with target := some (between full 0 k) }
        if trimmed[k]? = some (octet '=') then
          (levelFrom full (k + 1)).map fun l => { d with level := l }
        else inSpan full trimmed d (k + 1)

end Reading

section Kinds

/-- Whether a directive depends on spans or fields. -/
def isNarrow (d : Directive) : Bool := d.span.isSome || d.field.isSome

/-- Whether a directive can be decided without spans and the values of fields. -/
def isPlain (d : Directive) : Bool :=
  d.span.isNone && (d.field.map fun f => f.value.isNone).getD true

/-- Whether two directives are for the same thing. -/
def sameAs (d e : Directive) : Bool :=
  d.target == e.target && d.span == e.span &&
    match d.field, e.field with
    | some a, some b => a.same b
    | none, none => true
    | _, _ => false

/-- Whether a directive cares about an event of a target with some fields. -/
def caresFor (d : Directive) (target : List Char) (fields : List (List Char)) : Bool :=
  (d.target.getD []).isPrefixOf target && d.field.all fun f => fields.contains f.name

/-- Whether one directive is looked at before another: for a longer target, then for a field, then
for a later name. -/
def before (d e : Directive) : Bool :=
  let length (d : Directive) : Nat := (d.target.map fun t => t.length + 1).getD 0
  let name (d : Directive) : List Char := (d.field.map (·.name)).getD []
  if length d = length e then
    if d.field.isSome = e.field.isSome then name e < name d else d.field.isSome
  else length e < length d

/-- The text of a directive. -/
def text (d : Directive) : List Char :=
  let field := (d.field.map fun f => '\x7b' :: (f.text ++ ['\x7d'])).getD []
  let brackets := if d.isNarrow then '[' :: (d.span.getD [] ++ field ++ [']']) else []
  let what := d.target.getD [] ++ brackets
  (if d.target.isNone && !d.isNarrow then [] else what ++ ['=']) ++ d.level.name.toList

end Kinds

end Directive

namespace LogFilter

section Defs

/-- A directive joins a list; one for the same thing gives way. -/
def join (d : Directive) (ds : List Directive) : List Directive :=
  ds.filter (fun e => !e.sameAs d) ++ [d]

/-- A directive joins a filter at its beginning. -/
def start (f : LogFilter) (d : Directive) : LogFilter :=
  ⟨if d.isPlain then join d f.plain else f.plain,
    if d.isNarrow then join d f.narrow else f.narrow⟩

/-- A directive joins a filter later. -/
def add (f : LogFilter) (d : Directive) : LogFilter :=
  if d.isPlain then { f with plain := join d f.plain } else { f with narrow := join d f.narrow }

/-- Reads a filter; every directive must be readable. -/
def read? (s : String) : Option LogFilter := do
  let parts := (Text.pieces (· == ',') s.toList).filter fun p => !p.isEmpty
  return (← parts.mapM Directive.read?).foldl start ⟨[], []⟩

/-- The targets of which only warnings are logged, since they log every frame. -/
def quiet : List Directive :=
  ["hyper", "tungstenite", "tokio_tungstenite"].map fun t => ⟨some t.toList, none, none, .warn⟩

/-- The filter when nothing else can be read. -/
def fallback : LogFilter := ⟨[⟨none, none, none, .info⟩], []⟩

/-- The filter of the program: the one of the environment if it can be read, else the configured
level with the quiet targets. -/
def build (environment : Option String) (level : String) : LogFilter :=
  match environment.bind read? with
  | some f => f
  | none => quiet.foldl add ((read? level).getD fallback)

/-- The text of a filter. -/
def text (f : LogFilter) : List Char :=
  Text.join [','] ((f.plain ++ f.narrow).map Directive.text)

/-- The directive that decides for an event of a target with some fields. -/
def decisive (f : LogFilter) (target : List Char) (fields : List (List Char)) : Option Directive :=
  (f.plain.filter fun d => d.caresFor target fields).foldl
    (fun best d =>
      match best with
      | none => some d
      | some b => if d.before b then some d else best)
    none

/-- Whether an event of a target and a level with some fields is logged. -/
def permits (f : LogFilter) (target : String) (fields : List String) (level : LogLevel) : Bool :=
  match f.decisive target.toList (fields.map String.toList) with
  | none => false
  | some d => level.rank ≤ d.level.rank

end Defs

end LogFilter
end VoiceRelay
