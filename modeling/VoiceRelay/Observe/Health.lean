import VoiceRelay.Http.Reply
import VoiceRelay.Http.Target

/-!
# Health

Two flags, one for each kind of connection to the voice server, and the status that follows from
them. A part that is switched off leaves its flag up. Only when both are down is the relay
unhealthy, and only then does the reply have a code of failure.
-/

namespace VoiceRelay

/-- The flags. -/
structure Health where
  query : Bool
  eventStream : Bool
  deriving DecidableEq, Repr

/-- The status that follows from the flags. -/
inductive HealthStatus
  | healthy
  | degraded
  | unhealthy
  deriving DecidableEq, Repr

namespace HealthStatus

/-- The name of a status. -/
def name : HealthStatus → String
  | healthy => "healthy"
  | degraded => "degraded"
  | unhealthy => "unhealthy"

/-- The code of a reply. -/
def code : HealthStatus → Nat
  | unhealthy => 503
  | _ => 200

end HealthStatus

namespace Health

section Defs

/-- Both flags are up in the beginning. -/
def fresh : Health := ⟨true, true⟩

/-- The version that is reported. -/
def version : String := "0.1.0"

/-- The status. -/
def status (h : Health) : HealthStatus :=
  match h.query, h.eventStream with
  | true, true => .healthy
  | false, false => .unhealthy
  | _, _ => .degraded

/-- The report after a time in seconds. -/
def report (h : Health) (uptime : Nat) : Json.Value :=
  .object
    [("status", .text h.status.name), ("version", .text version),
      ("uptime_seconds", .number (.integer uptime)), ("query_connected", .bool h.query),
      ("event_stream_connected", .bool h.eventStream)]

/-- The path of the report. -/
def path : String := "/health"

/-- The reply of the report. -/
def reply (h : Health) (uptime : Nat) : Http.Reply :=
  Http.withJson h.status.code (h.report uptime)

/-- What a request to the interface for health gives. -/
def serve (h : Health) (uptime : Nat) (method target : String) : Http.Reply :=
  if Http.pathOf target = path then Http.resource method (h.reply uptime) else Http.bare 404

end Defs

end Health
end VoiceRelay
