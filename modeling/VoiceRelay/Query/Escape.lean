import VoiceRelay.Text.Blank

/-!
# Escaped values

The query interface separates fields by spaces, records by bars and lines by control characters,
so a value is written with eleven characters replaced by a backslash and a letter (a slash and a
backslash keep their own sign after the backslash). `encode` writes a value, `decode` reads one:
an unknown escape and a backslash at the very end are kept as they stand. `encodeWords` is the
form of a chat text: its words, each escaped, joined by the escaped space.

**Results.**

- `escapeLetter_plain`, `plainOf_escapeLetter`: the two tables are inverse to each other.
- `decode_encode`: reading what was written.
-/

namespace VoiceRelay
namespace Escape

section Defs

/-- The letter after the backslash for each special character. -/
def escapeLetter : Char → Option Char
  | '\\' => some '\\'
  | '/' => some '/'
  | ' ' => some 's'
  | '|' => some 'p'
  | '\n' => some 'n'
  | '\r' => some 'r'
  | '\t' => some 't'
  | '\x0B' => some 'v'
  | '\x0C' => some 'f'
  | '\x07' => some 'a'
  | '\x08' => some 'b'
  | _ => none

/-- The special character for each letter that may follow a backslash. -/
def plainOf : Char → Option Char
  | '\\' => some '\\'
  | '/' => some '/'
  | 's' => some ' '
  | 'p' => some '|'
  | 'n' => some '\n'
  | 'r' => some '\r'
  | 't' => some '\t'
  | 'v' => some '\x0B'
  | 'f' => some '\x0C'
  | 'a' => some '\x07'
  | 'b' => some '\x08'
  | _ => none

/-- How one character is written. -/
def encodeChar (c : Char) : List Char :=
  match escapeLetter c with
  | some letter => ['\\', letter]
  | none => [c]

/-- The written form of a value. -/
def encodeChars (cs : List Char) : List Char := cs.flatMap encodeChar

/-- Reads a written value; `done` holds, last first, what has been read before. -/
def decodeOnto (done : List Char) : List Char → List Char
  | [] => done.reverse
  | '\\' :: letter :: rest =>
    match plainOf letter with
    | some c => decodeOnto (c :: done) rest
    | none => decodeOnto (letter :: '\\' :: done) rest
  | c :: rest => decodeOnto (c :: done) rest

/-- The value that a written form stands for. -/
def decodeChars (cs : List Char) : List Char := decodeOnto [] cs

/-- The written form of a value. -/
def encode (value : String) : String := .ofList (encodeChars value.toList)

/-- The value that a written form stands for. -/
def decode (written : String) : String := .ofList (decodeChars written.toList)

/-- The words of a text, each written as a value, joined by the escaped space; `none` if the text
has no word. -/
def encodeWords (text : String) : Option String :=
  match Text.words text.toList with
  | [] => none
  | ws => some (.ofList (Text.join ['\\', 's'] (ws.map encodeChars)))

end Defs

section Laws

theorem decodeOnto_done (done cs : List Char) :
    decodeOnto done cs = done.reverse ++ decodeChars cs := by
  unfold decodeChars
  suffices h : ∀ n (cs : List Char), cs.length ≤ n → ∀ done,
      decodeOnto done cs = done.reverse ++ decodeOnto [] cs from h cs.length cs (by omega) done
  intro n
  induction n with
  | zero =>
    intro cs hn done
    have : cs = [] := List.length_eq_zero_iff.1 (by omega)
    subst this
    simp [decodeOnto]
  | succ n ih =>
    intro cs hn done
    match cs with
    | [] => simp [decodeOnto]
    | '\\' :: letter :: rest =>
      have hr : rest.length ≤ n := by simp at hn; omega
      simp only [decodeOnto]
      split
      · rw [ih rest hr, ih rest hr [_]]; simp
      · rw [ih rest hr, ih rest hr [_, _]]; simp
    | ['\\'] => simp [decodeOnto]
    | c :: rest =>
      have hr : rest.length ≤ n := by simp at hn; omega
      by_cases hc : c = '\\'
      · subst hc
        match rest with
        | [] => simp [decodeOnto]
        | letter :: rest =>
          have hr : rest.length ≤ n := by simp at hn; omega
          simp only [decodeOnto]
          split
          · rw [ih rest hr, ih rest hr [_]]; simp
          · rw [ih rest hr, ih rest hr [_, _]]; simp
      · rw [decodeOnto.eq_3 _ _ _ (by intro _ _ h; exact absurd h hc),
          decodeOnto.eq_3 _ _ _ (by intro _ _ h; exact absurd h hc), ih rest hr, ih rest hr [c]]
        simp

theorem decodeChars_escape (letter c : Char) (h : plainOf letter = some c) (rest : List Char) :
    decodeChars ('\\' :: letter :: rest) = c :: decodeChars rest := by
  simp only [decodeChars, decodeOnto, h]
  rw [decodeOnto_done]
  rfl

theorem decodeChars_plain (c : Char) (h : c ≠ '\\') (rest : List Char) :
    decodeChars (c :: rest) = c :: decodeChars rest := by
  simp only [decodeChars]
  rw [decodeOnto.eq_3 _ _ _ (by intro _ _ hc; exact absurd hc h), decodeOnto_done]
  rfl

/-- The tables are inverse to each other. -/
theorem plainOf_escapeLetter {c letter : Char} (h : escapeLetter c = some letter) :
    plainOf letter = some c := by
  unfold escapeLetter at h
  split at h <;> simp_all [plainOf] <;> subst h <;> rfl

theorem ne_backslash_of_plain {c : Char} (h : escapeLetter c = none) : c ≠ '\\' := by
  rintro rfl
  simp [escapeLetter] at h

/-- **Reading what was written.** -/
theorem decodeChars_encodeChars_append (cs rest : List Char) :
    decodeChars (encodeChars cs ++ rest) = cs ++ decodeChars rest := by
  induction cs with
  | nil => rfl
  | cons c cs ih =>
    have hcons : encodeChars (c :: cs) = encodeChar c ++ encodeChars cs := by simp [encodeChars]
    rw [hcons, List.append_assoc]
    unfold encodeChar
    split
    · next letter h =>
      simp only [List.cons_append, List.nil_append]
      rw [decodeChars_escape letter c (plainOf_escapeLetter h), ih]
    · next h =>
      simp only [List.cons_append, List.nil_append]
      rw [decodeChars_plain c (ne_backslash_of_plain h), ih]

theorem decodeChars_encodeChars (cs : List Char) : decodeChars (encodeChars cs) = cs := by
  have := decodeChars_encodeChars_append cs []
  simpa [decodeChars, decodeOnto] using this

theorem decode_encode (value : String) : decode (encode value) = value := by
  simp [decode, encode, decodeChars_encodeChars]

end Laws

end Escape
end VoiceRelay
