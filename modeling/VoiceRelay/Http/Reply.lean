import VoiceRelay.Json.Value
import VoiceRelay.Text.Utf8

/-!
# Requests and replies

What the relay's web interfaces need of HTTP: a request is a method, a target and headers, a reply
is a code, a few headers and a body. A resource can be read with `GET` and asked about with `HEAD`,
which gives the same reply without its body; any other method is refused.
-/

namespace VoiceRelay
namespace Http

/-- A request, and who sent it. Names of headers are in lower case. -/
structure Request where
  method : String
  target : String
  peer : Option String
  headers : List (String × String)
  deriving DecidableEq, Repr

/-- A reply. -/
structure Reply where
  code : Nat
  headers : List (String × String)
  body : List UInt8
  deriving DecidableEq, Repr

section Defs

/-- The value of a header. -/
def Request.header (r : Request) (name : String) : Option String := r.headers.lookup name

/-- The header for the type of the body. -/
def typeHeader : String := "content-type"

/-- A reply without a body. -/
def bare (code : Nat) : Reply := ⟨code, [], []⟩

/-- A reply that says where to go. -/
def elsewhere (location : String) : Reply := ⟨307, [("location", location)], []⟩

/-- A reply with a body of a type. -/
def withBody (code : Nat) (type : String) (body : List UInt8) : Reply :=
  ⟨code, [(typeHeader, type)], body⟩

/-- A reply with a JSON value. -/
def withJson (code : Nat) (v : Json.Value) : Reply :=
  withBody code "application/json" (Utf8.encode v.chars)

/-- The reply to a method that a resource does not know. -/
def refused : Reply := ⟨405, [("allow", "GET,HEAD")], []⟩

/-- A resource that can be read. -/
def resource (method : String) (read : Reply) : Reply :=
  if method = "GET" then read
  else if method = "HEAD" then { read with body := [] }
  else refused

end Defs

end Http
end VoiceRelay
