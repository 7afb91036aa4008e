import VoiceRelay.Disk.Tree
import VoiceRelay.Server.Settings
import VoiceRelay.Text.Utf8
import VoiceRelay.Toml.Document

/-!
# The settings file

Settings are read from a document of TOML. Each section is a table, or an array that holds the
values of its fields in order; what is missing keeps its default and what is unknown is passed over.
A date or a time counts as a table without known fields. A value of the wrong kind or out of range
spoils the whole file.

**Files.** A file that is missing stands for the defaults; any other trouble with it is a fault.
-/

namespace VoiceRelay
namespace SettingsFile

open Toml (Value Entries)

/-- Takes a value into a section; `none` if it does not fit. -/
abbrev Put (σ : Type) := Value → σ → Option σ

/-- Why settings cannot be read. -/
inductive Fault
  | wrong (path : String)
  | unreadable (path why : String)
  deriving DecidableEq, Repr

/-- What a fault says of the file. -/
def Fault.headline : Fault → String
  | wrong path => "Konfigurationsfehler in '" ++ path ++ "'"
  | unreadable path _ => "Konfigurationsdatei '" ++ path ++ "' nicht lesbar"

/-- The text of a fault; `detail` is the text of the reader of the document. -/
def Fault.message (detail : String) (f : Fault) : String :=
  f.headline ++ ": " ++
    match f with
    | wrong _ => detail
    | unreadable _ why => why

/-- Where settings come from. -/
inductive Source
  | file
  | standard
  deriving DecidableEq, Repr

section Fields

variable {σ : Type}

/-- A field that holds a text. -/
def text (set : String → σ → σ) : Put σ
  | .text t, s => some (set t s)
  | _, _ => none

/-- A field that is on or off. -/
def flag (set : Bool → σ → σ) : Put σ
  | .bool b, s => some (set b s)
  | _, _ => none

/-- A number below a bound. -/
def numberOf (bound : Nat) : Value → Option Nat
  | .integer n => if 0 ≤ n ∧ n < bound then some n.toNat else none
  | _ => none

/-- A text. -/
def textOf : Value → Option String
  | .text t => some t
  | _ => none

/-- A field that holds a number below a bound. -/
def number (bound : Nat) (set : Nat → σ → σ) : Put σ := fun v s =>
  (numberOf bound v).map fun n => set n s

/-- A field that holds a list. -/
def list {α : Type} (item : Value → Option α) (set : List α → σ → σ) : Put σ := fun v s =>
  match v with
  | .array items => (items.mapM item).map fun l => set l s
  | .tables items => (items.mapM item).map fun l => set l s
  | _ => none

/-- Takes the value of a whole section in. -/
def takeSection (fields : List (String × Put σ)) : Put σ := fun v s =>
  match v with
  | .table _ es =>
    fields.foldlM
      (fun s f =>
        match es.lookup f.1 with
        | some v => f.2 v s
        | none => some s)
      s
  | .array items => (fields.zip items).foldlM (fun s p => p.1.2 p.2 s) s
  | .tables items => (fields.zip items).foldlM (fun s p => p.1.2 p.2 s) s
  | .moment => some s
  | _ => none

end Fields

section Sections

open Decimal (bound16 bound32 bound64)

/-- The fields of the section for the web interface. -/
def web : List (String × Put WebSettings) :=
  [("bind_adresse", text fun v s => { s with address := v }),
    ("port", number bound16 fun v s => { s with port := v }),
    ("static_verzeichnis", text fun v s => { s with folder := v }),
    ("verbindungs_log", text fun v s => { s with requestLog := v }),
    ("sende_timeout_ms", number bound64 fun v s => { s with sendLimit := v })]

/-- The fields of the section for the log. -/
def log : List (String × Put LogSettings) :=
  [("level", text fun v s => { s with level := v }),
    ("format", text fun v s => { s with format := v })]

/-- The fields of the section for the account. -/
def access : List (String × Put AccessSettings) :=
  [("benutzer", text fun v s => { s with user := v }),
    ("passwort", text fun v s => { s with password := v }),
    ("adresse", text fun v s => { s with address := v }),
    ("port", number bound16 fun v s => { s with port := v }),
    ("server_id", number bound32 fun v s => { s with serverId := v }),
    ("keepalive_sek", number bound64 fun v s => { s with beat := v })]

/-- The fields of the section for the roster. -/
def roster : List (String × Put RosterSettings) :=
  [("aktiviert", flag fun v s => { s with enabled := v }),
    ("intervall_sek", number bound64 fun v s => { s with interval := v }),
    ("ausgeblendete_channels", list (numberOf bound64) fun v s => { s with hidden := v })]

/-- The fields of the section for the chat of the voice server. -/
def messages : List (String × Put MessageSettings) :=
  [("aktiviert", flag fun v s => { s with enabled := v }),
    ("chat_log", text fun v s => { s with journal := v }),
    ("keepalive_ms", number bound64 fun v s => { s with beat := v }),
    ("wiederverbindung_ms", number bound64 fun v s => { s with pause := v })]

/-- The fields of the section for chat from browsers. -/
def forward : List (String × Put ForwardSettings) :=
  [("aktiviert", flag fun v s => { s with enabled := v }),
    ("chat_echo", flag fun v s => { s with echo := v })]

/-- The fields of the section for the times of clients. -/
def times : List (String × Put TimesSettings) :=
  [("aktiviert", flag fun v s => { s with enabled := v }),
    ("programm", text fun v s => { s with program := v }),
    ("argumente", list textOf fun v s => { s with arguments := v }),
    ("max_eintraege", number bound64 fun v s => { s with limit := v })]

/-- The fields of the section for the mottos. -/
def motto : List (String × Put MottoSettings) :=
  [("aktiviert", flag fun v s => { s with enabled := v }),
    ("datei", text fun v s => { s with file := v })]

/-- The fields of the section for metrics and health. -/
def observe : List (String × Put ObserveSettings) :=
  [("aktiviert", flag fun v s => { s with enabled := v }),
    ("bind_adresse", text fun v s => { s with address := v }),
    ("port", number bound16 fun v s => { s with port := v })]

/-- A section of the settings. -/
def within {σ : Type} (fields : List (String × Put σ)) (get : Settings → σ)
    (set : σ → Settings → Settings) : Put Settings := fun v s =>
  (takeSection fields v (get s)).map fun x => set x s

/-- All sections. -/
def sections : List (String × Put Settings) :=
  [("web", within web (·.web) fun x s => { s with web := x }),
    ("logging", within log (·.log) fun x s => { s with log := x }),
    ("zugangsdaten", within access (·.access) fun x s => { s with access := x }),
    ("clientliste", within roster (·.roster) fun x s => { s with roster := x }),
    ("servernachrichten", within messages (·.messages) fun x s => { s with messages := x }),
    ("serververbindung", within forward (·.forward) fun x s => { s with forward := x }),
    ("clientzeit", within times (·.times) fun x s => { s with times := x }),
    ("motd", within motto (·.motto) fun x s => { s with motto := x }),
    ("observability", within observe (·.observe) fun x s => { s with observe := x })]

end Sections

section Reading

/-- The settings of a document. -/
def ofText (cs : List Char) : Option Settings :=
  (Toml.read? cs).bind fun es => takeSection sections (.table .header es) .standard

/-- What is said of a file whose octets are no text. -/
def notText : String := "stream did not contain valid UTF-8"

/-- Reads the settings at a path. -/
def load (d : Disk.Tree) (base : Disk.Place) (path : String) :
    Except Fault (Settings × Source) :=
  match d.read base path with
  | .error .missing => .ok (.standard, .standard)
  | .error f => .error (.unreadable path f.message)
  | .ok octets =>
    if Utf8.wellFormed octets then
      match ofText (Utf8.decode octets) with
      | some s => .ok (s, .file)
      | none => .error (.wrong path)
    else .error (.unreadable path notText)

end Reading

end SettingsFile
end VoiceRelay
