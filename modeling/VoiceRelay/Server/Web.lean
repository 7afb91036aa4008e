import VoiceRelay.Http.Files
import VoiceRelay.Journal.Writer
import VoiceRelay.Server.ClientTimes

/-!
# The web interface

Four things are served: the times of clients and a motto as JSON, the point where browsers connect
for chat, and the files of a folder for all other paths. Every request leaves a line in the journal
of requests, whatever becomes of it; trouble with that journal changes no reply.

**Connecting.** A browser that wants to connect must say so in its headers. The handing over itself
belongs to the connection and not to the reply; without a connection that can be handed over the
reply is a refusal.
-/

namespace VoiceRelay
namespace Web

/-- What the web interface serves. -/
structure Site where
  files : Http.Folder
  motto : Option String
  times : Except ClientTimes.Fault (List ClientTime)

section Defs

/-- The paths that are no files. -/
def timesPath : String := "/api/clientzeiten"
def mottoPath : String := "/api/motd"
def chatPath : String := "/ws"

/-- The reply with the times of clients. -/
def times (s : Site) : Http.Reply :=
  match s.times with
  | .ok ts => Http.withJson 200 (.array (ts.map ClientTimes.toValue))
  | .error _ => Http.bare 503

/-- The reply with a motto. -/
def motto (s : Site) : Http.Reply :=
  match s.motto with
  | some m => Http.withJson 200 (.object [("motd", .text m)])
  | none => Http.bare 404

/-- A refusal with its reason. -/
def refusal (code : Nat) (reason : String) : Http.Reply :=
  Http.withBody code "text/plain; charset=utf-8" (Utf8.encode reason.toList)

/-- Whether a header has a value, in any case. -/
def hasValue (r : Http.Request) (header value : String) : Bool :=
  (r.header header).any fun v => v.toList.map Char.toLower == value.toList

/-- Whether the value of a header has a word in it, in any case. -/
def mentions (r : Http.Request) (header word : String) : Bool :=
  (r.header header).any fun v =>
    (Text.cutAt word.toList [] (v.toList.map Char.toLower)).isSome

/-- The reply to a browser that wants to connect. -/
def connect (r : Http.Request) : Http.Reply :=
  if r.method ≠ "GET" then refusal 405 "Request method must be \x60GET\x60"
  else if !mentions r "connection" "upgrade" then
    refusal 400 "Connection header did not include 'upgrade'"
  else if !hasValue r "upgrade" "websocket" then
    refusal 400 "\x60Upgrade\x60 header did not include 'websocket'"
  else if !hasValue r "sec-websocket-version" "13" then
    refusal 400 "\x60Sec-WebSocket-Version\x60 header did not include '13'"
  else if (r.header "sec-websocket-key").isNone then
    refusal 400 "\x60Sec-WebSocket-Key\x60 header missing"
  else refusal 426 "WebSocket request couldn't be upgraded since no upgrade state was present"

/-- The reply to a request. -/
def reply (s : Site) (r : Http.Request) : Http.Reply :=
  let path := Http.pathOf r.target
  if path = timesPath then Http.resource r.method (times s)
  else if path = mottoPath then Http.resource r.method (motto s)
  else if path = chatPath then Http.resource r.method (connect r)
  else s.files.serve r

/-- The sender of a request that is not known. -/
def unknownPeer : String := "unbekannt"

/-- What a request leaves in the journal. -/
def record (r : Http.Request) : Journal.Call := .request (r.peer.getD unknownPeer)

/-- What requests leave in a journal, one after the other. -/
def log (rs : List Http.Request) : List UInt8 := rs.flatMap fun r => (record r).record

end Defs

end Web
end VoiceRelay
