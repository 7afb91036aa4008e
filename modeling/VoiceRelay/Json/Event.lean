import VoiceRelay.Json.Number

/-!
# JSON text as a list of events

`scan` turns a text into the events of its grammar, from left to right: scalars, brackets, commas,
colons and keys. The first place where the text leaves the grammar becomes one `fault` event, and
the list ends there. A reader for a particular type (`Json.Decoder`) then works on events, so the
leftmost problem decides, whether it is one of grammar or one of type.

**Two strictnesses.** A string or number that is only skipped has to obey the grammar; one whose
value is wanted must also have paired surrogates and be in range. A scalar event therefore carries
the outcome of the strict reading; if the lenient reading fails as well, a `fault` follows.

**Keys.** Where a key should be, anything but a string is malformed. Only a reader that wants a
single string there sees the kind of thing it met; `noKey` carries the problem it reports.

**Problems.** `malformed`: not JSON; `truncated`: the text ends too early; `mismatched`: JSON of
another shape than asked for.

**Results.**

- `quoted_length`, `numeral_length`: what is left after a scalar is shorter.
- `scanFrom_eq`: a scan is one move and a scan of what is left.
-/

namespace VoiceRelay
namespace Json

/-- Why a text is refused. -/
inductive Problem
  | malformed
  | truncated
  | mismatched
  deriving DecidableEq, Repr

/-- The three words of JSON. -/
inductive Word
  | null
  | true
  | false
  deriving DecidableEq, Repr

/-- One step of the grammar. -/
inductive Event
  | word (result : Except Problem Word)
  | number (result : Except Problem Number)
  | string (result : Except Problem String)
  | openArray
  | closeArray
  | openObject
  | closeObject
  | comma
  | key (result : Except Problem String)
  | noKey (asText : Problem)
  | colon
  | fault (problem : Problem)
  deriving Repr

/-- The problem of a value of another kind than asked for; a scalar is read to its end first. -/
def wrongKind : List Event → Problem
  | [] => .truncated
  | .fault p :: _ => p
  | .word (.error p) :: _ | .number (.error p) :: _ | .string (.error p) :: _ => p
  | _ => .mismatched

/-- A scalar: the outcome of the strict reading, and what is left if only the grammar counts. -/
structure Scanned (α : Type) where
  value : Except Problem α
  rest : Except Problem (List Char)

namespace Scanned

/-- Both readings end in one problem. -/
def failed {α : Type} (p : Problem) : Scanned α := ⟨.error p, .error p⟩

/-- The same reading with its value changed. -/
def map {α β : Type} (f : α → β) (s : Scanned α) : Scanned β := ⟨s.value.map f, s.rest⟩

end Scanned

section Blanks

/-- The four blanks of JSON. -/
def isBlank (c : Char) : Bool := c == ' ' || c == '\t' || c == '\n' || c == '\r'

/-- The text without the blanks it begins with. -/
def skipBlanks (cs : List Char) : List Char := cs.dropWhile isBlank

theorem skipBlanks_length (cs : List Char) : (skipBlanks cs).length ≤ cs.length := by
  unfold skipBlanks
  induction cs with
  | nil => simp
  | cons c cs ih =>
    simp only [List.dropWhile_cons]
    split
    · exact Nat.le_succ_of_le ih
    · simp

end Blanks

section Strings

/-- The value of a hexadecimal digit. -/
def hexValue? (c : Char) : Option Nat :=
  if '0' ≤ c ∧ c ≤ '9' then some (c.toNat - '0'.toNat)
  else if 'a' ≤ c ∧ c ≤ 'f' then some (c.toNat - 'a'.toNat + 10)
  else if 'A' ≤ c ∧ c ≤ 'F' then some (c.toNat - 'A'.toNat + 10)
  else none

/-- The code unit that four hexadecimal digits denote. -/
def hex4? (a b c d : Char) : Option Nat := do
  return ((← hexValue? a) * 16 + (← hexValue? b)) * 256 + (← hexValue? c) * 16 + (← hexValue? d)

/-- Whether a code unit is the first half of a pair. -/
def isHigh (n : Nat) : Bool := 0xD800 ≤ n && n ≤ 0xDBFF

/-- Whether a code unit is the second half of a pair. -/
def isLow (n : Nat) : Bool := 0xDC00 ≤ n && n ≤ 0xDFFF

/-- The character of a pair. -/
def pairChar (high low : Nat) : Char :=
  Char.ofNat ((high - 0xD800) * 0x400 + (low - 0xDC00) + 0x10000)

/-- The character that a letter after the backslash stands for. -/
def escaped? : Char → Option Char
  | '"' => some '"'
  | '\\' => some '\\'
  | '/' => some '/'
  | 'b' => some '\x08'
  | 'f' => some '\x0C'
  | 'n' => some '\n'
  | 'r' => some '\r'
  | 't' => some '\t'
  | _ => none

/-- How far a string has been read: the characters so far (last first), the first half of a pair
that waits for its second, and whether a pair has been broken already. -/
structure Quoting where
  done : List Char
  high : Option Nat
  flawed : Bool
  deriving DecidableEq, Repr

namespace Quoting

/-- A whole character was read; a waiting first half stays alone. -/
def push (q : Quoting) (c : Char) : Quoting :=
  ⟨c :: q.done, none, q.flawed || q.high.isSome⟩

/-- A code unit was read. -/
def unit (q : Quoting) (n : Nat) : Quoting :=
  match q.high with
  | some h =>
    if isLow n then ⟨pairChar h n :: q.done, none, q.flawed⟩ else ⟨q.done, none, true⟩
  | none =>
    if isHigh n then { q with high := some n }
    else if isLow n then { q with flawed := true }
    else q.push (Char.ofNat n)

/-- The text has a problem here. -/
def stop (q : Quoting) (p : Problem) : Scanned String :=
  ⟨.error (if q.flawed then .malformed else p), .error p⟩

/-- The closing quote was read. -/
def close (q : Quoting) (rest : List Char) : Scanned String :=
  ⟨if q.flawed || q.high.isSome then .error .malformed else .ok (.ofList q.done.reverse), .ok rest⟩

end Quoting

/-- Fewer than four characters follow `\u`: the text ends too early if they are fewer than four
octets. -/
def shortHex (cs : List Char) : Problem :=
  if cs.foldl (fun n c => n + c.utf8Size) 0 < 4 then .truncated else .malformed

/-- Reads a string whose opening quote is behind us. -/
def quoted (q : Quoting) : List Char → Scanned String
  | [] => q.stop .truncated
  | '"' :: rest => q.close rest
  | '\\' :: 'u' :: a :: b :: c :: d :: rest =>
    match hex4? a b c d with
    | some n => quoted (q.unit n) rest
    | none => q.stop .malformed
  | '\\' :: 'u' :: rest => q.stop (shortHex rest)
  | '\\' :: e :: rest =>
    match escaped? e with
    | some c => quoted (q.push c) rest
    | none => q.stop .malformed
  | ['\\'] => q.stop .truncated
  | c :: rest => if c.toNat < 0x20 then q.stop .malformed else quoted (q.push c) rest

theorem quoted_length {q : Quoting} {cs rest : List Char} (h : (quoted q cs).rest = .ok rest) :
    rest.length < cs.length := by
  fun_induction quoted q cs with
  | case1 => simp [Quoting.stop] at h
  | case2 q r =>
    simp only [Quoting.close, Except.ok.injEq] at h
    subst h
    simp
  | case3 q a b c d r n hn ih =>
    have := ih h
    simp only [List.length_cons]
    omega
  | case4 => simp [Quoting.stop] at h
  | case5 => simp [Quoting.stop] at h
  | case6 =>
    rename_i ih
    have := ih h
    simp only [List.length_cons]
    omega
  | case7 => simp [Quoting.stop] at h
  | case8 => simp [Quoting.stop] at h
  | case9 => simp [Quoting.stop] at h
  | case10 =>
    rename_i ih
    have := ih h
    simp only [List.length_cons]
    omega

end Strings

section Numbers

/-- The digits at the front and what follows them. -/
def spanDigits (cs : List Char) : List Char × List Char :=
  (cs.takeWhile Decimal.isDigit, cs.dropWhile Decimal.isDigit)

/-- A numeral that breaks off: at the end of the text the strict reading calls it truncated. -/
def brokenNumeral (cs : List Char) : Scanned Number :=
  ⟨.error (if cs.isEmpty then .truncated else .malformed), .error .malformed⟩

/-- A complete numeral. -/
def wholeNumeral (n : Numeral) (rest : List Char) : Scanned Number :=
  ⟨if n.inRange then .ok n.number else .error .malformed, .ok rest⟩

/-- The exponent, if there is one, and the end of the numeral. -/
def numeralExponent (n : Numeral) : List Char → Scanned Number
  | c :: rest =>
    if c = 'e' ∨ c = 'E' then
      let (negative, rest) := match rest with
        | '+' :: r => (false, r)
        | '-' :: r => (true, r)
        | r => (false, r)
      match spanDigits rest with
      | ([], r) => brokenNumeral r
      | (ds, r) =>
        let e := Int.ofNat (Decimal.value ds)
        wholeNumeral { n with exponent := some (if negative then -e else e) } r
    else wholeNumeral n (c :: rest)
  | [] => wholeNumeral n []

/-- The fraction, if there is one, and what follows. -/
def numeralFraction (n : Numeral) : List Char → Scanned Number
  | '.' :: rest =>
    match spanDigits rest with
    | ([], r) => brokenNumeral r
    | (ds, r) => numeralExponent { n with fraction := some ds } r
  | rest => numeralExponent n rest

/-- A numeral whose sign is behind us. -/
def numeral (negative : Bool) (cs : List Char) : Scanned Number :=
  match cs with
  | '0' :: rest =>
    match spanDigits rest with
    | ([], r) => numeralFraction ⟨negative, ['0'], none, none⟩ r
    | _ => .failed .malformed
  | _ =>
    match spanDigits cs with
    | ([], r) => brokenNumeral r
    | (ds, r) => numeralFraction ⟨negative, ds, none, none⟩ r

theorem spanDigits_length {cs ds rest : List Char} (h : spanDigits cs = (ds, rest)) :
    ds.length + rest.length = cs.length := by
  simp only [spanDigits, Prod.mk.injEq] at h
  obtain ⟨rfl, rfl⟩ := h
  rw [← List.length_append, List.takeWhile_append_dropWhile]

theorem numeralExponent_length {n : Numeral} {cs rest : List Char}
    (h : (numeralExponent n cs).rest = .ok rest) : rest.length ≤ cs.length := by
  unfold numeralExponent at h
  split at h
  · next c r =>
    split at h
    · simp only at h
      split at h
      · simp [brokenNumeral] at h
      · next ds r' _ hs =>
        simp only [wholeNumeral, Except.ok.injEq] at h
        subst h
        have := spanDigits_length hs
        have hle : (match r with
            | '+' :: r => (false, r)
            | '-' :: r => (true, r)
            | r => (false, r)).2.length ≤ r.length := by
          split <;> simp
        simp only [List.length_cons]
        omega
    · simp only [wholeNumeral, Except.ok.injEq] at h
      subst h
      simp
  · simp only [wholeNumeral, Except.ok.injEq] at h
    subst h
    simp

theorem numeralFraction_length {n : Numeral} {cs rest : List Char}
    (h : (numeralFraction n cs).rest = .ok rest) : rest.length ≤ cs.length := by
  unfold numeralFraction at h
  split at h
  · next r =>
    split at h
    · simp [brokenNumeral] at h
    · next hs =>
      have := spanDigits_length hs
      have := numeralExponent_length h
      simp only [List.length_cons]
      omega
  · exact numeralExponent_length h

theorem numeral_length {negative : Bool} {cs rest : List Char}
    (h : (numeral negative cs).rest = .ok rest) : rest.length < cs.length := by
  unfold numeral at h
  split at h
  · next r =>
    split at h
    · next hs =>
      have := spanDigits_length hs
      have := numeralFraction_length h
      simp only [List.length_cons]
      omega
    · simp [Scanned.failed] at h
  · split at h
    · simp [brokenNumeral] at h
    · next ds r hne hs =>
      have := spanDigits_length hs
      have := numeralFraction_length h
      have : 0 < ds.length := List.length_pos_iff.2 (fun e => hne e)
      omega

end Numbers

section Words

/-- Reads the rest of a word whose first letter is behind us. -/
def spelled (w : Word) : List Char → List Char → Scanned Word
  | [], cs => ⟨.ok w, .ok cs⟩
  | _ :: _, [] => .failed .truncated
  | l :: ls, c :: cs => if c = l then spelled w ls cs else .failed .malformed

theorem spelled_length {w : Word} {ls cs rest : List Char}
    (h : (spelled w ls cs).rest = .ok rest) : rest.length ≤ cs.length := by
  fun_induction spelled w ls cs with
  | case1 cs =>
    simp only [Except.ok.injEq] at h
    subst h
    exact Nat.le_refl _
  | case2 => simp [Scanned.failed] at h
  | case3 l ls cs ih => exact Nat.le_succ_of_le (ih h)
  | case4 => simp [Scanned.failed] at h

end Words

section Grammar

/-- What the grammar allows next. -/
inductive Want
  | value
  | itemOrClose
  | keyOrClose
  | key
  | colon
  | more
  | nothing
  deriving DecidableEq, Repr

/-- The bracket that is open. -/
inductive Bracket
  | array
  | object
  deriving DecidableEq, Repr

/-- What may follow a complete value. -/
def afterValue : List Bracket → Want
  | [] => .nothing
  | _ :: _ => .more

/-- Some events and where the scan goes on; `none` if it is over. -/
abbrev Move := List Event × Option (Want × List Bracket × List Char)

/-- A scalar event, and where the scan goes on if the grammar allows it. -/
def scalarMove {α : Type} (event : Except Problem α → Event) (next : Want) (opened : List Bracket)
    (s : Scanned α) : Move :=
  match s.rest with
  | .ok rest => ([event s.value], some (next, opened, rest))
  | .error p => ([event s.value, .fault p], none)

/-- The scan stops with a problem. -/
def stopMove (p : Problem) : Move :=
  ([.fault p], none)

/-- The first event of a value that begins with `c`. -/
def valueMove (opened : List Bracket) (c : Char) (rest : List Char) :
    Move :=
  let next := afterValue opened
  if c = '"' then scalarMove .string next opened (quoted ⟨[], none, false⟩ rest)
  else if c = '[' then ([.openArray], some (.itemOrClose, .array :: opened, rest))
  else if c = '\x7b' then ([.openObject], some (.keyOrClose, .object :: opened, rest))
  else if c = 'n' then scalarMove .word next opened (spelled .null ['u', 'l', 'l'] rest)
  else if c = 't' then scalarMove .word next opened (spelled .true ['r', 'u', 'e'] rest)
  else if c = 'f' then scalarMove .word next opened (spelled .false ['a', 'l', 's', 'e'] rest)
  else if c = '-' then scalarMove .number next opened (numeral true rest)
  else if Decimal.isDigit c then scalarMove .number next opened (numeral false (c :: rest))
  else stopMove .malformed

/-- The event of a key whose first character is `c`. Anything but a string ends the scan; the event
tells what a reader of a single string finds there. -/
def keyMove (opened : List Bracket) (c : Char) (rest : List Char) :
    Move :=
  if c = '"' then scalarMove .key .colon opened (quoted ⟨[], none, false⟩ rest)
  else ([.noKey (wrongKind (valueMove opened c rest).1)], none)

/-- What may close or continue the innermost bracket. -/
def moreMove (opened : List Bracket) (c : Char) (rest : List Char) :
    Move :=
  match opened with
  | .array :: outer =>
    if c = ',' then ([.comma], some (.value, opened, rest))
    else if c = ']' then ([.closeArray], some (afterValue outer, outer, rest))
    else stopMove .malformed
  | .object :: outer =>
    if c = ',' then ([.comma], some (.key, opened, rest))
    else if c = '\x7d' then ([.closeObject], some (afterValue outer, outer, rest))
    else stopMove .malformed
  | [] => stopMove .malformed

/-- The next event, from the first character that is no blank. -/
def move (want : Want) (opened : List Bracket) (c : Char) (rest : List Char) :
    Move :=
  match want with
  | .nothing => stopMove .malformed
  | .colon => if c = ':' then ([.colon], some (.value, opened, rest)) else stopMove .malformed
  | .key => keyMove opened c rest
  | .keyOrClose =>
    if c = '\x7d' then ([.closeObject], some (afterValue opened.tail, opened.tail, rest))
    else keyMove opened c rest
  | .itemOrClose =>
    if c = ']' then ([.closeArray], some (afterValue opened.tail, opened.tail, rest))
    else valueMove opened c rest
  | .value => valueMove opened c rest
  | .more => moreMove opened c rest

theorem scalarMove_length {α : Type} {event : Except Problem α → Event} {next want : Want}
    {opened opened' : List Bracket} {s : Scanned α} {rest : List Char}
    (h : (scalarMove event next opened s).2 = some (want, opened', rest)) : s.rest = .ok rest := by
  unfold scalarMove at h
  split at h
  · next r hr =>
    simp only [Option.some.injEq, Prod.mk.injEq] at h
    rw [hr, h.2.2]
  · simp at h

theorem valueMove_length {opened opened' : List Bracket} {c : Char} {rest rest' : List Char}
    {want : Want} (h : (valueMove opened c rest).2 = some (want, opened', rest')) :
    rest'.length ≤ rest.length := by
  unfold valueMove at h
  simp only at h
  split at h
  · exact Nat.le_of_lt (quoted_length (scalarMove_length h))
  split at h
  · simp only [Option.some.injEq, Prod.mk.injEq] at h; simp [h.2.2]
  split at h
  · simp only [Option.some.injEq, Prod.mk.injEq] at h; simp [h.2.2]
  split at h
  · exact spelled_length (scalarMove_length h)
  split at h
  · exact spelled_length (scalarMove_length h)
  split at h
  · exact spelled_length (scalarMove_length h)
  split at h
  · exact Nat.le_of_lt (numeral_length (scalarMove_length h))
  split at h
  · have := numeral_length (scalarMove_length h)
    simp only [List.length_cons] at this
    omega
  · simp [stopMove] at h

theorem keyMove_length {opened opened' : List Bracket} {c : Char} {rest rest' : List Char}
    {want : Want} (h : (keyMove opened c rest).2 = some (want, opened', rest')) :
    rest'.length ≤ rest.length := by
  unfold keyMove at h
  split at h
  · exact Nat.le_of_lt (quoted_length (scalarMove_length h))
  · simp at h

theorem moreMove_length {opened opened' : List Bracket} {c : Char} {rest rest' : List Char}
    {want : Want} (h : (moreMove opened c rest).2 = some (want, opened', rest')) :
    rest'.length ≤ rest.length := by
  unfold moreMove at h
  split at h
  · split at h
    · simp only [Option.some.injEq, Prod.mk.injEq] at h; simp [h.2.2]
    split at h
    · simp only [Option.some.injEq, Prod.mk.injEq] at h; simp [h.2.2]
    · simp [stopMove] at h
  · split at h
    · simp only [Option.some.injEq, Prod.mk.injEq] at h; simp [h.2.2]
    split at h
    · simp only [Option.some.injEq, Prod.mk.injEq] at h; simp [h.2.2]
    · simp [stopMove] at h
  · simp [stopMove] at h

/-- Each move uses up at least its first character. -/
theorem move_length {want want' : Want} {opened opened' : List Bracket} {c : Char}
    {rest rest' : List Char} (h : (move want opened c rest).2 = some (want', opened', rest')) :
    rest'.length ≤ rest.length := by
  unfold move at h
  split at h
  · simp [stopMove] at h
  · split at h
    · simp only [Option.some.injEq, Prod.mk.injEq] at h; simp [h.2.2]
    · simp [stopMove] at h
  · exact keyMove_length h
  · split at h
    · simp only [Option.some.injEq, Prod.mk.injEq] at h; simp [h.2.2]
    · exact keyMove_length h
  · split at h
    · simp only [Option.some.injEq, Prod.mk.injEq] at h; simp [h.2.2]
    · exact valueMove_length h
  · exact valueMove_length h
  · exact moreMove_length h

/-- The events of a text, up to the first place where it leaves the grammar. -/
def scanFrom (want : Want) (opened : List Bracket) (cs : List Char) : List Event :=
  match _hcs : skipBlanks cs with
  | [] => if want = .nothing then [] else [.fault .truncated]
  | c :: rest =>
    match _hm : move want opened c rest with
    | (events, none) => events
    | (events, some (want', opened', rest')) => events ++ scanFrom want' opened' rest'
  termination_by cs.length
  decreasing_by
    have h₁ := skipBlanks_length cs
    have h₂ := move_length (congrArg Prod.snd _hm)
    rw [_hcs] at h₁
    simp only [List.length_cons] at h₁
    omega

/-- One move of the scan. -/
theorem scanFrom_eq (want : Want) (opened : List Bracket) (cs : List Char) :
    scanFrom want opened cs =
      match skipBlanks cs with
      | [] => if want = .nothing then [] else [.fault .truncated]
      | c :: rest =>
        match move want opened c rest with
        | (events, none) => events
        | (events, some (want', opened', rest')) => events ++ scanFrom want' opened' rest' := by
  rw [scanFrom]
  split
  · next hcs => simp only [hcs]
  · next hcs =>
    simp only [hcs]
    split <;> next hm => simp only [hm]

/-- The events of a whole text. -/
def scan (text : String) : List Event := scanFrom .value [] text.toList

end Grammar

end Json
end VoiceRelay
