import VoiceRelay.Json.Event
import VoiceRelay.Text.Blank

/-!
# Addresses of sockets

The written form of an address with a port: four decimal parts and a port, or groups of hexadecimal
digits in brackets and a port. Of the groups one run of zeros may be left out, the last two may be
written as four decimal parts, and a number may name the interface.

**Decimal parts.** At most three digits without a leading zero, below 256; a port has at most five
digits that are below 65536, with leading zeros or not.
-/

namespace VoiceRelay
namespace Address

section Defs

/-- Whether a text is a decimal part below 256. -/
def isPart (cs : List Char) : Bool :=
  !cs.isEmpty && cs.length ≤ 3 && cs.all Decimal.isDigit && (cs.length == 1 || cs.head? != some '0')
    && Decimal.value cs < 256

/-- Whether a text is a number below a bound, with digits only. -/
def isNumber (bound : Nat) (cs : List Char) : Bool :=
  !cs.isEmpty && cs.all Decimal.isDigit && Decimal.value cs < bound

/-- Whether a text is four decimal parts. -/
def isQuad (cs : List Char) : Bool :=
  let ps := Text.pieces (· == '.') cs
  ps.length == 4 && ps.all isPart

/-- Whether a text is a group of hexadecimal digits. -/
def isGroup (cs : List Char) : Bool :=
  !cs.isEmpty && cs.length ≤ 4 && cs.all fun c => (Json.hexValue? c).isSome

/-- How many groups a text has, if it is a list of groups. -/
def groupCount (mayEndInQuad : Bool) (cs : List Char) : Option Nat :=
  if cs.isEmpty then some 0
  else
    let ps := Text.pieces (· == ':') cs
    let last := ps.getLastD []
    if ps.all isGroup then some ps.length
    else if mayEndInQuad && ps.dropLast.all isGroup && isQuad last then some (ps.length + 1)
    else none

/-- Whether a text is eight groups, of which a run may be left out. -/
def isGroups (cs : List Char) : Bool :=
  match Text.cutAt "::".toList [] cs with
  | some (front, back) =>
    match groupCount false front, groupCount true back with
    | some a, some b => a + b ≤ 7
    | _, _ => false
  | none => groupCount true cs == some 8

/-- Whether a text is an address with a port. -/
def isSocket (text : String) : Bool :=
  match text.toList with
  | '[' :: r =>
    match Text.splitOnce (· == ']') r with
    | some (inside, ':' :: port) =>
      let (groups, zone) := match Text.splitOnce (· == '%') inside with
        | some (g, z) => (g, isNumber Decimal.bound32 z)
        | none => (inside, true)
      isGroups groups && zone && isNumber Decimal.bound16 port
    | _ => false
  | cs =>
    match Text.splitOnce (· == ':') cs with
    | some (quad, port) => isQuad quad && isNumber Decimal.bound16 port
    | none => false

end Defs

section Listening

/-- The first port that a program may take without privileges. -/
def firstFreePort : Nat := 1024

/-- Whether a text is groups that are all zero. -/
def isAnywhere (cs : List Char) : Bool :=
  isGroups cs && cs.all fun c => c == '0' || c == ':'

/-- Why a program without privileges cannot listen at an address, on a host without a name service
whose interfaces have no addresses of their own; there only the addresses of four parts are open. -/
def refusal (text : String) : Option String :=
  match Text.splitOnce (· == ':') text.toList.reverse with
  | none => some "invalid socket address"
  | some (port, host) =>
    let host := host.reverse
    let inner := ((Text.dropLead? ['['] host).map List.dropLast).getD host
    let port := port.reverse
    if !isNumber Decimal.bound16 port then some "invalid port value"
    else if !isQuad host && !isGroups inner && host != "localhost".toList then
      some "failed to lookup address information: Temporary failure in name resolution"
    else if 0 < Decimal.value port ∧ Decimal.value port < firstFreePort then
      some "Permission denied (os error 13)"
    else if isGroups inner && !isAnywhere inner then
      some "Cannot assign requested address (os error 99)"
    else none

end Listening

end Address
end VoiceRelay
