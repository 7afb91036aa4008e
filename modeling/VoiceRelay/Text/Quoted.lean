import VoiceRelay.Text.Blank
import VoiceRelay.Text.Shape

/-!
# Quoted text for logs

A text between double quotes, in which a quote, a backslash and the characters that do not stand by
themselves are escaped, so that what a log shows is unambiguous and holds no line break.
-/

namespace VoiceRelay
namespace Quoted

section Defs

/-- The lower-case hexadecimal digits of a number, without leading zeros. -/
def hexDigits (n : Nat) : List Char := Nat.toDigits 16 n

/-- The escape for a character by its number. -/
def numbered (c : Char) : List Char := "\\u\x7b".toList ++ hexDigits c.toNat ++ ['}']

/-- One character inside quotes. -/
def quoteChar (c : Char) : List Char :=
  match c with
  | '"' => ['\\', '"']
  | '\\' => ['\\', '\\']
  | '\t' => ['\\', 't']
  | '\n' => ['\\', 'n']
  | '\r' => ['\\', 'r']
  | '\x00' => ['\\', '0']
  | c => if Shape.standsAlone c then [c] else numbered c

/-- A text in quotes. -/
def quote (s : String) : List Char := '"' :: (s.toList.flatMap quoteChar ++ ['"'])

/-- A structure with named fields, whose values are written already. -/
def fields (name : String) (parts : List (String × List Char)) : List Char :=
  name.toList ++ " \x7b ".toList ++
    Text.join ", ".toList (parts.map fun p => p.1.toList ++ ": ".toList ++ p.2) ++
    " \x7d".toList

end Defs

end Quoted
end VoiceRelay
