import VoiceRelay.Text.Decimal
import VoiceRelay.Query.Escape

/-!
# Records and status lines

A data line holds records separated by bars; a record holds fields separated by spaces; a field is
`key=value` with an escaped value, or a bare key. A reply ends with a status line
`error id=<n> msg=<text>`, whose number is 0 when the command succeeded.

**Design.** A `Record` keeps its keys in order of first appearance, each once; a later field with
the same key replaces the value.

**Results.**

- `get?_put`: writing a field changes that field and no other.
-/

namespace VoiceRelay

/-- Fields of one record, keys in order of first appearance. -/
structure Record where
  fields : List (String × String)
  deriving DecidableEq, Repr, Inhabited

namespace Record

section Defs

/-- The record without fields. -/
def empty : Record := ⟨[]⟩

/-- The value of a key in a list of fields. -/
def lookup (key : String) : List (String × String) → Option String
  | [] => none
  | (k, v) :: fields => if k = key then some v else lookup key fields

/-- Sets the value of a key in place, or adds it at the end. -/
def assign (key value : String) : List (String × String) → List (String × String)
  | [] => [(key, value)]
  | (k, v) :: fields =>
    if k = key then (k, value) :: fields else (k, v) :: assign key value fields

/-- The value of a field. -/
def get? (r : Record) (key : String) : Option String := lookup key r.fields

/-- The record with a field set. -/
def put (r : Record) (key value : String) : Record := ⟨assign key value r.fields⟩

/-- The keys of a record. -/
def keys (r : Record) : List String := r.fields.map (·.1)

/-- A record from fields in order; a later field replaces an earlier one of the same key. -/
def ofFields (fields : List (String × String)) : Record :=
  fields.foldl (fun r f => r.put f.1 f.2) empty

/-- The field that a token without spaces spells. -/
def fieldOfToken (token : List Char) : String × String :=
  match Text.splitOnce (· == '=') token with
  | some (key, value) => (.ofList key, .ofList (Escape.decodeChars value))
  | none => (.ofList token, "")

/-- The fields that stand in a text, separated by spaces. -/
def fieldsOf (part : List Char) : List (String × String) :=
  ((Text.pieces (· == ' ') part).filter (fun t => !t.isEmpty)).map fieldOfToken

/-- The record that a text without bars spells. -/
def ofChars (part : List Char) : Record := ofFields (fieldsOf part)

/-- The records of a data line; parts that are blank hold no record. -/
def listOfChars (line : List Char) : List Record :=
  ((Text.pieces (· == '|') (Text.trimEnd line)).filter
    (fun part => !(Text.trim part).isEmpty)).map ofChars

/-- The record that a text without bars spells. -/
def parse (part : String) : Record := ofChars part.toList

/-- The records of a data line. -/
def parseLine (line : String) : List Record := listOfChars line.toList

end Defs

section Laws

theorem lookup_assign (key key' value : String) (fields : List (String × String)) :
    lookup key' (assign key value fields) =
      if key' = key then some value else lookup key' fields := by
  induction fields with
  | nil =>
    by_cases h : key' = key
    · simp [assign, lookup, h]
    · simp [assign, lookup, h, Ne.symm h]
  | cons f fields ih =>
    obtain ⟨k, v⟩ := f
    by_cases hk : k = key
    · by_cases h : key' = key
      · simp [assign, lookup, hk, h]
      · have : ¬ key = key' := fun e => h e.symm
        simp [assign, lookup, hk, h, this]
    · by_cases h : k = key'
      · have : ¬ key' = key := fun e => hk (h.trans e)
        simp [assign, lookup, h, this]
      · simp [assign, lookup, hk, h, ih]

/-- Writing a field changes that field and no other. -/
theorem get?_put (r : Record) (key key' value : String) :
    (r.put key value).get? key' = if key' = key then some value else r.get? key' :=
  lookup_assign key key' value r.fields

end Laws

end Record

/-- The last line of a reply. -/
structure Status where
  id : Nat
  message : String
  deriving DecidableEq, Repr

namespace Status

/-- Whether the command succeeded. -/
def isOk (s : Status) : Bool := s.id == 0

/-- How a status line begins. -/
def lead : List Char := "error ".toList

/-- The status that a line spells; `none` if it is no status line. -/
def ofChars (line : List Char) : Option Status := do
  let rest ← Text.dropLead? lead (Text.trimEnd line)
  let fields := Record.ofChars rest
  let written ← fields.get? "id"
  let id ← Decimal.read? Decimal.bound32 written.toList
  return ⟨id, (fields.get? "msg").getD ""⟩

/-- The status that a line spells; `none` if it is no status line. -/
def parse? (line : String) : Option Status := ofChars line.toList

end Status
end VoiceRelay
