import VoiceRelay.Journal.Writer
import VoiceRelay.Observe.LogFilter
import VoiceRelay.Query.Client
import VoiceRelay.Server.Address
import VoiceRelay.Server.Motto
import VoiceRelay.Server.SettingsFile

/-!
# Starting the relay

The parts of the relay are started in a fixed order, and the first that cannot be started ends the
start: the check of the settings, the mottos, the journal of requests, the command connection, the
journal of chat, the interface for metrics and health, the web interface. On the way the relay logs
what it does.

**Faults.** A fault has a text of its own and those of its causes, from the outermost inwards.

**Results.**

- `start_of_check`: settings that do not pass the check start nothing and log nothing.
-/

namespace VoiceRelay

/-- A line of the log, without its time and the values of its fields. -/
structure LogLine where
  level : LogLevel
  target : String
  fields : List String
  text : String
  deriving DecidableEq, Repr

/-- Why the relay cannot be started. -/
inductive StartFault
  | settings (f : SettingsFault)
  | motto (f : Motto.Fault)
  | requestLog (path : String) (f : Disk.Fault)
  | login (target : String) (f : Fault)
  | chatLog (path : String) (f : Disk.Fault)
  | observeAddress
  | bind (address why : String)
  deriving DecidableEq, Repr

/-- What the host gives: files, the place that paths start from, what opening streams gives, and why
the web interface cannot listen at an address, if it cannot. -/
structure Host where
  disk : Disk.Tree
  base : Disk.Place
  dials : List Dial
  exhausted : Fault
  refusal : String → Option String

/-- The parts that were started. -/
structure Started where
  mottos : Option (List String)
  client : Option Client

namespace StartFault

/-- The texts of trouble with a journal. -/
def journalChain (what path : String) (f : Disk.Fault) : List String :=
  [what ++ " '" ++ path ++ "' nicht oeffenbar", "IO-Fehler: " ++ f.message, f.message]

/-- The text of a fault, and of what caused it. -/
def chain : StartFault → List String
  | settings f => [f.message]
  | motto f => f.chain
  | requestLog path f => journalChain "Verbindungs-Log" path f
  | login target f => ("ServerQuery-Anmeldung an " ++ target ++ " fehlgeschlagen") :: f.chain
  | chatLog path f => journalChain "Chat-Log" path f
  | observeAddress => ["Ungueltige Observability-Adresse", "invalid socket address syntax"]
  | bind address why => ["Bind auf " ++ address ++ " fehlgeschlagen", why]

end StartFault

namespace Startup

/-- How far the start has come: the files, and the log, newest line first. -/
structure Progress where
  disk : Disk.Tree
  log : List LogLine

/-- A step of the start. -/
abbrev Stage (α : Type) := Progress → Except StartFault α × Progress

section Steps

/-- Two steps, one after the other. -/
def next {α β : Type} (a : Stage α) (b : α → Stage β) : Stage β := fun p =>
  match a p with
  | (.ok x, p) => b x p
  | (.error f, p) => (.error f, p)

/-- A step that is taken only if it is asked for. -/
def optional {α : Type} (on : Bool) (a : Stage α) : Stage (Option α) := fun p =>
  if on then
    match a p with
    | (.ok x, p) => (.ok (some x), p)
    | (.error f, p) => (.error f, p)
  else (.ok none, p)

/-- Logs a line. -/
def log (level : LogLevel) (target : String) (fields : List String) (text : String) : Stage Unit :=
  fun p => (.ok (), { p with log := ⟨level, target, fields, text⟩ :: p.log })

/-- A step that changes nothing. -/
def decided {α : Type} (r : Except StartFault α) : Stage α := fun p => (r, p)

/-- The check of the settings. -/
def checked (s : Settings) : Stage Unit := decided (s.check.mapError .settings)

/-- Reads the mottos. -/
def mottos (h : Host) (s : Settings) : Stage (List String) := fun p =>
  match Motto.load p.disk h.base s.motto.file with
  | .ok ms =>
    next (log .info "tsrelay_server::motd" ["pfad", "zeilen"] "MOTD geladen")
      (fun _ => decided (.ok ms)) p
  | .error f => (.error (.motto f), p)

/-- Opens a journal. -/
def journal (h : Host) (path : String) (fault : Disk.Fault → StartFault) : Stage Unit := fun p =>
  match Journal.openAt p.disk h.base path with
  | .ok (d, _) =>
    log .debug "tsrelay_core::journal" ["pfad"] "Journal geoeffnet" { p with disk := d }
  | .error f => (.error (fault f), p)

/-- Signs in on the command connection. -/
def commands (h : Host) (s : Settings) : Stage Client := fun p =>
  let call := (Client.fresh s.credentials h.dials h.exhausted).connect none 0
  match call.result with
  | some (.ok ()) =>
    next (log .info "tsrelay_query::client" ["ziel", "benutzer"]
        "ServerQuery-Verbindung hergestellt") (fun _ => decided (.ok call.client)) p
  | some (.error f) => (.error (.login s.credentials.target f), p)
  | none => (.error (.login s.credentials.target .closed), p)

/-- Listens for metrics and health. -/
def observe (s : Settings) : Stage Unit :=
  decided (if Address.isSocket s.observeAddress then .ok () else .error .observeAddress)

/-- Listens for browsers. -/
def listen (h : Host) (s : Settings) : Stage Unit :=
  match h.refusal s.webAddress with
  | some why => decided (.error (.bind s.webAddress why))
  | none => log .info "tsrelay_server" ["adresse"] "Web-Server bereit"

/-- The fields of the line about the start. -/
def parts : List String :=
  ["web", "query", "clientliste", "servernachrichten", "serververbindung"]

/-- The whole start. -/
def stages (h : Host) (s : Settings) : Stage Started :=
  next (checked s) fun _ =>
  next (log .info "tsrelay_server" parts "Server startet") fun _ =>
  next (optional s.motto.enabled (mottos h s)) fun ms =>
  next (journal h s.web.requestLog (.requestLog s.web.requestLog)) fun _ =>
  next (log .info "tsrelay_hub::hub" ["sende_timeout_ms"] "Hub gestartet") fun _ =>
  next (optional s.needsCommands (commands h s)) fun client =>
  next (optional s.messages.enabled
    (journal h s.messages.journal (.chatLog s.messages.journal))) fun _ =>
  next (optional s.observe.enabled (observe s)) fun _ =>
  next (listen h s) fun _ =>
  next (log .info "tsrelay_server" []
    "Server laeuft. Warte auf Shutdown-Signal (Ctrl-C)...") fun _ =>
  decided (.ok ⟨ms, client⟩)

/-- Starts the relay. -/
def start (h : Host) (s : Settings) : Except StartFault Started × Progress :=
  stages h s ⟨h.disk, []⟩

/-- Settings that do not pass the check start nothing and log nothing. -/
theorem start_of_check (h : Host) {s : Settings} {f : SettingsFault} (hf : s.check = .error f) :
    start h s = (.error (.settings f), ⟨h.disk, []⟩) := by
  have hc : checked s = decided (.error (.settings f)) := by
    rw [checked, hf]
    rfl
  simp [start, stages, next, hc, decided]

end Steps

end Startup
end VoiceRelay
