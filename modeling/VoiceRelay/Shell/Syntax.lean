import VoiceRelay.Shell.Octet

/-!
# Scripts

What a script is made of: words, whose pieces are expanded when a command runs, redirections of what
a command reads and writes, and commands, which are put together to pipelines, lists, loops and
choices.
-/

namespace VoiceRelay
namespace Shell

/-- How the value of a parameter is taken; `orEmpty` says that an empty value counts as none. -/
inductive Taking
  | plain
  | length
  | default (orEmpty : Bool)
  | assign (orEmpty : Bool)
  | complain (orEmpty : Bool)
  | instead (orEmpty : Bool)
  | dropFront (longest : Bool)
  | dropBack (longest : Bool)
  deriving DecidableEq, Repr

/-- What a redirection does with its number. -/
inductive Direction
  | read
  | write
  | append
  | duplicate
  | document
  deriving DecidableEq, Repr

mutual

/-- A piece of a word: text, a parameter, what a command prints, or the value of a sum. -/
inductive Piece
  | text (quoted : Bool) (cs : Octets)
  | parameter (quoted : Bool) (name : Octets) (taking : Taking) (word : List Piece)
  | output (quoted : Bool) (c : Command)
  | sum (quoted : Bool) (word : List Piece)

/-- A redirection of a number. -/
inductive Redirect
  | mk (number : Nat) (direction : Direction) (target : List Piece)

/-- A command. -/
inductive Command
  | skip
  | simple (settings : List (Octets × List Piece)) (words : List (List Piece))
      (redirects : List Redirect)
  | redirected (c : Command) (redirects : List Redirect)
  | subshell (c : Command)
  | sequence (a b : Command)
  | also (a b : Command)
  | otherwise (a b : Command)
  | negated (c : Command)
  | pipeline (first : Command) (rest : List Command)
  | background (c : Command)
  | choice (test yes no : Command)
  | loop (whileTrue : Bool) (test body : Command)
  | each (name : Octets) (words : Option (List (List Piece))) (body : Command)
  | select (word : List Piece) (arms : List (List (List Piece) × Command))
  | define (name : Octets) (body : Command)

end

/-- A word. -/
abbrev Word := List Piece

/-- Whether a character ends a word. -/
def isMeta (c : Char) : Bool := " \t\n;&|<>()".toList.contains c

/-- Whether a character may stand in a name. -/
def isNameChar (c : Char) : Bool := c.isAlphanum || c == '_'

/-- Whether a text is a name. -/
def isName (cs : Octets) : Bool :=
  !cs.isEmpty && cs.all isNameChar && !(cs.head?.any Char.isDigit)

end Shell
end VoiceRelay
