import VoiceRelay.Text.Decimal
import VoiceRelay.Text.Quoted
import VoiceRelay.Query.Escape

/-!
# Who logs in where

The account, the address of the query interface and the virtual server that is used, with the two
commands that follow from them. `login` writes user name and password as escaped values, so the
line has exactly three space-separated parts whatever the two texts are. `display` is for logs and
does not depend on the password.
-/

namespace VoiceRelay

/-- The account, the address and the virtual server. -/
structure Credentials where
  user : String
  password : String
  address : String
  port : Nat
  serverId : Nat
  deriving DecidableEq, Repr

namespace Credentials

/-- `address:port`. -/
def target (c : Credentials) : String := c.address ++ ":" ++ .ofList (Decimal.digits c.port)

/-- The command that logs in. -/
def login (c : Credentials) : String :=
  "login " ++ Escape.encode c.user ++ " " ++ Escape.encode c.password

/-- The command that picks the virtual server. -/
def use (c : Credentials) : String := "use " ++ .ofList (Decimal.digits c.serverId)

/-- What stands in a log in place of the password. -/
def hidden : String := "***"

/-- The form for logs. -/
def display (c : Credentials) : String :=
  .ofList (Quoted.fields "Zugangsdaten"
    [("benutzer", Quoted.quote c.user), ("passwort", Quoted.quote hidden),
      ("adresse", Quoted.quote c.address), ("port", Decimal.digits c.port),
      ("server_id", Decimal.digits c.serverId)])

end Credentials
end VoiceRelay
