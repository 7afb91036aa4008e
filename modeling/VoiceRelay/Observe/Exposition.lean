import VoiceRelay.Text.Binary64
import VoiceRelay.Text.Blank

/-!
# The text format of metrics

A family of metrics is written as a line of help, a line with its kind and one line for each sample:
the name with an optional suffix, labels in braces, and the value as the shortest positional decimal
that reads back as the same number.

**Escapes.** In the value of a label a backslash, a quote and a line feed are written with a
backslash; all else stands for itself.
-/

namespace VoiceRelay
namespace Exposition

/-- The kinds of metrics. -/
inductive Kind
  | counter
  | gauge
  | histogram
  deriving DecidableEq, Repr

/-- The name of a kind. -/
def Kind.name : Kind → String
  | counter => "counter"
  | gauge => "gauge"
  | histogram => "histogram"

/-- One sample. -/
structure Sample where
  suffix : String
  labels : List (String × String)
  value : Float

/-- A family of metrics. -/
structure Family where
  name : String
  help : String
  kind : Kind
  samples : List Sample

section Defs

/-- One character of the value of a label. -/
def escapeChar : Char → List Char
  | '\\' => ['\\', '\\']
  | '"' => ['\\', '"']
  | '\n' => ['\\', 'n']
  | c => [c]

/-- A label with its value. -/
def label (l : String × String) : List Char :=
  l.1.toList ++ '=' :: '"' :: (l.2.toList.flatMap escapeChar ++ ['"'])

/-- All labels of a sample. -/
def labelList : List (String × String) → List Char
  | [] => []
  | ls => '\x7b' :: (Text.join [','] (ls.map label) ++ ['\x7d'])

/-- The line of a sample. -/
def Sample.line (name : String) (s : Sample) : List Char :=
  name.toList ++ s.suffix.toList ++ labelList s.labels ++ ' ' :: Binary64.text s.value ++ ['\n']

/-- A line about a family. -/
def note (word name text : String) : List Char :=
  ("# " ++ word ++ " " ++ name ++ " " ++ text ++ "\n").toList

/-- The lines of a family; one without samples has none. -/
def Family.lines (f : Family) : List Char :=
  if f.samples.isEmpty then []
  else
    note "HELP" f.name f.help ++ note "TYPE" f.name f.kind.name ++ f.samples.flatMap (·.line f.name)

/-- The text of some families. -/
def text (fs : List Family) : List Char := fs.flatMap Family.lines

end Defs

end Exposition
end VoiceRelay
