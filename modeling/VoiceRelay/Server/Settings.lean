import VoiceRelay.Observe.LogLevel
import VoiceRelay.Query.Credentials
import VoiceRelay.Query.EventStream

/-!
# Settings

Everything that can be configured, in nine sections, with defaults for all of it; what follows from
the settings for the parts of the relay; and the check of what types alone do not say.

**Check.** The faults are looked for in a fixed order and the first one counts. A value is checked
only if a part that uses it is switched on.

**Results.**

- `check_standard`: the defaults pass the check.
-/

namespace VoiceRelay

/-- The web interface: where it listens, its files, its log, and how long a subscriber may take. -/
structure WebSettings where
  address : String
  port : Nat
  folder : String
  requestLog : String
  sendLimit : Nat
  deriving DecidableEq, Repr

/-- The log. -/
structure LogSettings where
  level : String
  format : String
  deriving DecidableEq, Repr

/-- The account at the voice server, and the seconds between two signs of life; zero for none. -/
structure AccessSettings where
  user : String
  password : String
  address : String
  port : Nat
  serverId : Nat
  beat : Nat
  deriving DecidableEq, Repr

/-- The roster: how often it is asked for, in seconds, and which channels are never shown. -/
structure RosterSettings where
  enabled : Bool
  interval : Nat
  hidden : List Nat
  deriving DecidableEq, Repr

/-- The chat of the voice server: its journal, and the times of the connection, in milliseconds. -/
structure MessageSettings where
  enabled : Bool
  journal : String
  beat : Nat
  pause : Nat
  deriving DecidableEq, Repr

/-- Chat from browsers: whether it goes to the voice server, and whether to other browsers. -/
structure ForwardSettings where
  enabled : Bool
  echo : Bool
  deriving DecidableEq, Repr

/-- The program that lists the times of clients. -/
structure TimesSettings where
  enabled : Bool
  program : String
  arguments : List String
  limit : Nat
  deriving DecidableEq, Repr

/-- The mottos. -/
structure MottoSettings where
  enabled : Bool
  file : String
  deriving DecidableEq, Repr

/-- The interface for metrics and health. -/
structure ObserveSettings where
  enabled : Bool
  address : String
  port : Nat
  deriving DecidableEq, Repr

/-- All settings. -/
structure Settings where
  web : WebSettings
  log : LogSettings
  access : AccessSettings
  roster : RosterSettings
  messages : MessageSettings
  forward : ForwardSettings
  times : TimesSettings
  motto : MottoSettings
  observe : ObserveSettings
  deriving DecidableEq, Repr

/-- What is wrong with settings. -/
inductive SettingsFault
  | level (name : String)
  | format (name : String)
  | rosterInterval
  | messageBeat
  | sendLimit
  | program
  | address
  deriving DecidableEq, Repr

/-- The text of a fault. -/
def SettingsFault.message : SettingsFault → String
  | level name => "Unbekanntes Log-Level '" ++ name ++ "'"
  | format name => "Unbekanntes Log-Format '" ++ name ++ "'"
  | rosterInterval => "clientliste.intervall_sek muss groesser als 0 sein"
  | messageBeat => "servernachrichten.keepalive_ms muss groesser als 0 sein"
  | sendLimit => "web.sende_timeout_ms muss groesser als 0 sein"
  | program => "clientzeit.programm darf nicht leer sein"
  | address => "zugangsdaten.adresse darf nicht leer sein"

namespace Settings

section Defs

/-- The defaults. -/
def standard : Settings :=
  { web := ⟨"0.0.0.0", 8081, "./static", "connections.txt", 5000⟩
    log := ⟨"info", "text"⟩
    access := ⟨"serveradmin", "", "127.0.0.1", 10011, 1, 60⟩
    roster := ⟨true, 5, [98]⟩
    messages := ⟨true, "chathistory.txt", 1000, 1000⟩
    forward := ⟨true, false⟩
    times := ⟨false, "./ltc", ["./logs"], 13⟩
    motto := ⟨true, "./static/teamspeaksayings.txt"⟩
    observe := ⟨true, "127.0.0.1", 9300⟩ }

/-- Whether the shared command connection is needed: the roster and chat from browsers use it. -/
def needsCommands (s : Settings) : Bool := s.roster.enabled || s.forward.enabled

/-- Whether a text has no character but blanks. -/
def isBlankText (t : String) : Bool := (Text.trim t.toList).isEmpty

/-- The faults, each with the condition under which it is there, in the order of looking. -/
def faults (s : Settings) : List (Bool × SettingsFault) :=
  [(!LogLevel.isKnown s.log.level, .level s.log.level),
    ((LogFormat.ofName? s.log.format).isNone, .format s.log.format),
    (s.roster.enabled && s.roster.interval == 0, .rosterInterval),
    (s.messages.enabled && s.messages.beat == 0, .messageBeat),
    (s.web.sendLimit == 0, .sendLimit),
    (s.times.enabled && isBlankText s.times.program, .program),
    (s.needsCommands && isBlankText s.access.address, .address)]

/-- The check. -/
def check (s : Settings) : Except SettingsFault Unit :=
  match s.faults.find? (·.1) with
  | some (_, f) => .error f
  | none => .ok ()

/-- The account at the voice server. -/
def credentials (s : Settings) : Credentials :=
  ⟨s.access.user, s.access.password, s.access.address, s.access.port, s.access.serverId⟩

/-- The time between two signs of life on the command connection, in milliseconds. -/
def commandBeat (s : Settings) : Option Nat :=
  if 0 < s.access.beat then some (s.access.beat * 1000) else none

/-- How long opening a stream may take, in milliseconds. -/
def dialLimit : Nat := 10000

/-- What the event stream needs to know. -/
def stream (s : Settings) : StreamSettings :=
  ⟨s.credentials, s.messages.beat, s.messages.pause, dialLimit⟩

/-- An address with its port. -/
def withPort (address : String) (port : Nat) : String :=
  address ++ ":" ++ .ofList (Decimal.digits port)

/-- Where the web interface listens. -/
def webAddress (s : Settings) : String := withPort s.web.address s.web.port

/-- Where the interface for metrics and health listens. -/
def observeAddress (s : Settings) : String := withPort s.observe.address s.observe.port

/-- The defaults pass the check. -/
theorem check_standard : standard.check = .ok () := by rfl

end Defs

section Display

/-- A truth value. -/
def flag (b : Bool) : List Char := (if b then "true" else "false").toList

/-- A list. -/
def listed (items : List (List Char)) : List Char :=
  '[' :: (Text.join ", ".toList items ++ [']'])

/-- The sections as they are shown in a log; the password is not. -/
def sections (s : Settings) : List (String × List Char) :=
  [("web", Quoted.fields "WebEinstellungen"
      [("bind_adresse", Quoted.quote s.web.address), ("port", Decimal.digits s.web.port),
        ("static_verzeichnis", Quoted.quote s.web.folder),
        ("verbindungs_log", Quoted.quote s.web.requestLog),
        ("sende_timeout_ms", Decimal.digits s.web.sendLimit)]),
    ("logging", Quoted.fields "LoggingEinstellungen"
      [("level", Quoted.quote s.log.level), ("format", Quoted.quote s.log.format)]),
    ("zugangsdaten", Quoted.fields "ZugangsdatenEinstellungen"
      [("benutzer", Quoted.quote s.access.user), ("passwort", Quoted.quote Credentials.hidden),
        ("adresse", Quoted.quote s.access.address), ("port", Decimal.digits s.access.port),
        ("server_id", Decimal.digits s.access.serverId),
        ("keepalive_sek", Decimal.digits s.access.beat)]),
    ("clientliste", Quoted.fields "ClientlisteEinstellungen"
      [("aktiviert", flag s.roster.enabled), ("intervall_sek", Decimal.digits s.roster.interval),
        ("ausgeblendete_channels", listed (s.roster.hidden.map Decimal.digits))]),
    ("servernachrichten", Quoted.fields "ServernachrichtenEinstellungen"
      [("aktiviert", flag s.messages.enabled), ("chat_log", Quoted.quote s.messages.journal),
        ("keepalive_ms", Decimal.digits s.messages.beat),
        ("wiederverbindung_ms", Decimal.digits s.messages.pause)]),
    ("serververbindung", Quoted.fields "SerververbindungEinstellungen"
      [("aktiviert", flag s.forward.enabled), ("chat_echo", flag s.forward.echo)]),
    ("clientzeit", Quoted.fields "ClientzeitEinstellungen"
      [("aktiviert", flag s.times.enabled), ("programm", Quoted.quote s.times.program),
        ("argumente", listed (s.times.arguments.map Quoted.quote)),
        ("max_eintraege", Decimal.digits s.times.limit)]),
    ("motd", Quoted.fields "MotdEinstellungen"
      [("aktiviert", flag s.motto.enabled), ("datei", Quoted.quote s.motto.file)]),
    ("observability", Quoted.fields "ObservabilityEinstellungen"
      [("aktiviert", flag s.observe.enabled), ("bind_adresse", Quoted.quote s.observe.address),
        ("port", Decimal.digits s.observe.port)])]

/-- The form for logs. -/
def display (s : Settings) : String := .ofList (Quoted.fields "ServerConfig" s.sections)

end Display

end Settings
end VoiceRelay
