import VoiceRelay.Json.Event

/-!
# JSON values

The tree behind a JSON text, its compact text, and its reading from events. Members keep the order
of the text. A repeated key is either kept, so that a later reader can refuse it, or replaces the
earlier member: `Repeats` says which.

**Limit.** Reading opens at most `limit` brackets inside each other.

**Results.**

- `build_length`: reading a value uses up at least one event.
-/

namespace VoiceRelay
namespace Json

/-- A JSON value. -/
inductive Value
  | null
  | bool (b : Bool)
  | number (n : Number)
  | text (s : String)
  | array (items : List Value)
  | object (members : List (String × Value))
  deriving Repr, Inhabited

/-- What becomes of a member whose key has been read before. -/
inductive Repeats
  | kept
  | replacing
  deriving DecidableEq, Repr

section Text

/-- The hexadecimal digit of a number below 16. -/
def hexDigit (n : Nat) : Char := Char.ofNat (if n < 10 then '0'.toNat + n else 'a'.toNat + (n - 10))

/-- How a character is written inside a string: quotes, backslashes and control characters are
escaped, nothing else. -/
def quoteChar (c : Char) : List Char :=
  if c = '"' then ['\\', '"']
  else if c = '\\' then ['\\', '\\']
  else if c = '\x08' then ['\\', 'b']
  else if c = '\x0C' then ['\\', 'f']
  else if c = '\n' then ['\\', 'n']
  else if c = '\r' then ['\\', 'r']
  else if c = '\t' then ['\\', 't']
  else if c.toNat < 0x20 then
    ['\\', 'u', '0', '0', hexDigit (c.toNat / 16), hexDigit (c.toNat % 16)]
  else [c]

/-- A string in quotes. -/
def quote (s : String) : List Char := '"' :: (s.toList.flatMap quoteChar ++ ['"'])

mutual

/-- The compact text of a value. -/
def Value.chars : Value → List Char
  | .null => "null".toList
  | .bool true => "true".toList
  | .bool false => "false".toList
  | .number n => n.text
  | .text s => quote s
  | .array items => '[' :: (itemChars items ++ [']'])
  | .object members => '\x7b' :: (memberChars members ++ ['\x7d'])

/-- The compact texts of some items, separated by commas. -/
def itemChars : List Value → List Char
  | [] => []
  | [v] => v.chars
  | v :: vs => v.chars ++ ',' :: itemChars vs

/-- The compact texts of some members, separated by commas. -/
def memberChars : List (String × Value) → List Char
  | [] => []
  | [(k, v)] => quote k ++ ':' :: v.chars
  | (k, v) :: ms => quote k ++ ':' :: (v.chars ++ ',' :: memberChars ms)

end

/-- The compact text of a value. -/
def Value.render (v : Value) : String := .ofList v.chars

end Text

section Reading

/-- Adds a member at the end, or replaces the value of the key in place. -/
def assign (key : String) (value : Value) : List (String × Value) → List (String × Value)
  | [] => [(key, value)]
  | (k, v) :: members =>
    if k = key then (k, value) :: members else (k, v) :: assign key value members

/-- Adds a member as the rule for repeated keys wants it. -/
def Repeats.add (r : Repeats) (key : String) (value : Value) (members : List (String × Value)) :
    List (String × Value) :=
  match r with
  | .kept => members ++ [(key, value)]
  | .replacing => assign key value members

/-- A value under construction: items last first, or members and the key that waits. -/
inductive Frame
  | array (items : List Value)
  | object (members : List (String × Value)) (key : String)
  deriving Repr

/-- The value of a finished construction. -/
def Frame.close : Frame → Value
  | .array items => .array items.reverse
  | .object members _ => .object members

/-- Puts a value into the innermost construction. -/
def Frame.put (r : Repeats) (v : Value) : Frame → Frame
  | .array items => .array (v :: items)
  | .object members key => .object (r.add key v members) key

/-- The value that a word stands for. -/
def Word.value : Word → Value
  | .null => .null
  | .true => .bool Bool.true
  | .false => .bool Bool.false

/-- A complete value is the whole, or goes into the construction around it. -/
def settle (r : Repeats) (v : Value) : List Frame → Value ⊕ List Frame
  | [] => .inl v
  | f :: outer => .inr (f.put r v :: outer)

/-- Reads a value from events; `opened` holds the constructions around it, innermost first. -/
def build (r : Repeats) (limit : Nat) (opened : List Frame) :
    List Event → Except Problem (Value × List Event)
  | [] => .error .truncated
  | .word (.ok w) :: es =>
    match settle r w.value opened with
    | .inl v => .ok (v, es)
    | .inr fs => build r limit fs es
  | .number (.ok n) :: es =>
    match settle r (.number n) opened with
    | .inl v => .ok (v, es)
    | .inr fs => build r limit fs es
  | .string (.ok s) :: es =>
    match settle r (.text s) opened with
    | .inl v => .ok (v, es)
    | .inr fs => build r limit fs es
  | .word (.error p) :: _ | .number (.error p) :: _ | .string (.error p) :: _
  | .key (.error p) :: _ | .fault p :: _ => .error p
  | .openArray :: es =>
    if limit ≤ opened.length then .error .malformed else build r limit (.array [] :: opened) es
  | .openObject :: es =>
    if limit ≤ opened.length then .error .malformed else build r limit (.object [] "" :: opened) es
  | .key (.ok k) :: es =>
    match opened with
    | .object members _ :: outer => build r limit (.object members k :: outer) es
    | _ => .error .malformed
  | .noKey _ :: _ => .error .malformed
  | .comma :: es | .colon :: es => build r limit opened es
  | .closeArray :: es | .closeObject :: es =>
    match opened with
    | f :: outer =>
      match settle r f.close outer with
      | .inl v => .ok (v, es)
      | .inr fs => build r limit fs es
    | [] => .error .malformed

/-- Reading a value uses up at least one event. -/
theorem build_length {r : Repeats} {limit : Nat} {opened : List Frame} {es rest : List Event}
    {v : Value} (h : build r limit opened es = .ok (v, rest)) : rest.length < es.length := by
  have whole : ∀ (w : Value) (e : Event) (es : List Event),
      (Except.ok (w, es) : Except Problem (Value × List Event)) = .ok (v, rest) →
        rest.length < (e :: es).length := by
    intro w e es hw
    simp only [Except.ok.injEq, Prod.mk.injEq] at hw
    simp [hw.2]
  fun_induction build r limit opened es with
  | case2 | case4 | case6 | case22 | case25 => exact whole _ _ _ h
  | case3 | case5 | case7 | case14 | case16 | case17 | case20 | case21 | case23 | case26 =>
    rename_i ih
    exact Nat.lt_succ_of_lt (ih h)
  | case1 | case8 | case9 | case10 | case11 | case12 | case13 | case15 | case18 | case19
  | case24 | case27 =>
    simp at h

end Reading

end Json
end VoiceRelay
