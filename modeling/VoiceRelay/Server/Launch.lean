import VoiceRelay.Json.Value
import VoiceRelay.Server.Startup

/-!
# Launching the program

The program takes the path of its settings and what to log from its environment, reads the settings,
and starts the relay. If that fails it says why and ends with a code of failure.

**Report.** The text of the fault comes first; its causes follow, indented, with numbers if there
are several.
-/

namespace VoiceRelay
namespace Launch

/-- Why the program ends. -/
inductive Fault
  | file (f : SettingsFile.Fault)
  | start (f : StartFault)
  deriving DecidableEq, Repr

/-- What becomes of a launch: how the log is written, its lines, and what went wrong. -/
structure Outcome where
  format : LogFormat
  log : List LogLine
  fault : Option Fault

section Defs

/-- The names of the variables. -/
def pathVariable : String := "TSRELAY_CONFIG"
def levelVariable : String := "TSRELAY_LOG_LEVEL"
def formatVariable : String := "TSRELAY_LOG_FORMAT"

/-- The path of the settings when none is given. -/
def standardPath : String := "config.toml"

/-- How the log is written: the environment counts before the settings. -/
def formatOf (environment : Option String) (s : Settings) : LogFormat :=
  ((environment.bind LogFormat.ofName?).or (LogFormat.ofName? s.log.format)).getD .text

/-- The lines before the start. -/
def opening (source : SettingsFile.Source) : List LogLine :=
  (if source = .standard then
    [⟨.warn, "tsrelay_server", ["pfad"],
      "Konfigurationsdatei nicht gefunden, verwende Standardwerte"⟩]
  else []) ++
    [⟨.info, "tsrelay_server", ["version", "config"], "tsrelay Server wird initialisiert"⟩]

/-- The field that holds the text of a line. -/
def messageField : String := "message"

/-- Launches the program on a host. -/
def run (lookup : String → Option String) (h : Host) : Outcome :=
  match SettingsFile.load h.disk h.base ((lookup pathVariable).getD standardPath) with
  | .error f => ⟨.text, [], some (.file f)⟩
  | .ok (s, source) =>
    let filter := LogFilter.build (lookup levelVariable) s.log.level
    let (result, progress) := Startup.start h s
    let lines := opening source ++ progress.log.reverse
    ⟨formatOf (lookup formatVariable) s,
      lines.filter fun l => filter.permits l.target (messageField :: l.fields) l.level,
      match result with
      | .ok _ => none
      | .error f => some (.start f)⟩

/-- A line of the log as it is written. -/
def shown (format : LogFormat) (l : LogLine) : String :=
  let level := l.level.name.map Char.toUpper
  match format with
  | .text => level ++ " " ++ l.target ++ ": " ++ l.text
  | .json =>
    .ofList (Json.Value.chars (.object
      [("level", .text level), ("fields", .object [(messageField, .text l.text)]),
        ("target", .text l.target)]))

/-- The texts of a fault; `detail` is the text of the reader of the settings. -/
def Fault.chain (detail : String) : Fault → List String
  | file f => [f.message detail]
  | start f => f.chain

/-- A text whose later lines begin with a margin. -/
def indented (margin : List Char) (text : String) : List Char :=
  Text.join ('\n' :: margin) (Text.pieces (· == '\n') text.toList)

/-- The causes, each on lines of its own. -/
def causes : List String → List Char
  | [] => []
  | [c] => "\n    ".toList ++ indented "    ".toList c
  | cs =>
    (cs.zipIdx.map fun (c, i) =>
      let number := Decimal.digits i
      '\n' :: (List.replicate (5 - number.length) ' ' ++ number ++ ": ".toList ++
        indented "       ".toList c)).flatten

/-- What is said of a fault with its causes. -/
def report : List String → String
  | [] => ""
  | [c] => "Error: " ++ c ++ "\n"
  | c :: cs => "Error: " ++ c ++ "\n\nCaused by:" ++ .ofList (causes cs) ++ "\n"

end Defs

end Launch
end VoiceRelay
