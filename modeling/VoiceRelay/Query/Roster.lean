import VoiceRelay.Query.Fault
import VoiceRelay.Query.Record

/-!
# Who is in which channel

`Occupant` and `Channel` are the entries of the two lists that the query interface gives;
`Roster.join` puts them together: for each channel name the nicknames of those inside. Query
identities, hidden channels and channels nobody is in are left out, channels of one name are
merged. Names stand in the order of the channels, nicknames in the order of the clients.

**Design.** The join opens one room per name, remembers for each channel id the room of the last
channel with that id, and then lets each client enter its room.
-/

namespace VoiceRelay

/-- An entry of the client list. -/
structure Occupant where
  id : Nat
  nickname : String
  channelId : Nat
  kind : Nat
  deriving DecidableEq, Repr

/-- An entry of the channel list. -/
structure Channel where
  id : Nat
  name : String
  deriving DecidableEq, Repr

/-- A channel name with the nicknames of those inside. -/
structure Room where
  name : String
  members : List String
  deriving DecidableEq, Repr

namespace Record

/-- The number in a field; the field must be there and hold a number below the bound. -/
def number (r : Record) (field : String) (bound : Nat) : Except Fault Nat :=
  match r.get? field with
  | none => .error (.malformed ("Feld '" ++ field ++ "' fehlt"))
  | some written =>
    match Decimal.read? bound written.toList with
    | none => .error (.malformed ("Feld '" ++ field ++ "' ist keine Zahl: '" ++ written ++ "'"))
    | some n => .ok n

end Record

namespace Occupant

/-- The kind of a query identity. -/
def queryKind : Nat := 1

/-- Whether the entry is a query identity. -/
def isQuery (o : Occupant) : Bool := o.kind == queryKind

/-- The entry that a record holds. -/
def ofRecord (r : Record) : Except Fault Occupant := do
  let id ← r.number "clid" Decimal.bound64
  let channelId ← r.number "cid" Decimal.bound64
  let kind ← r.number "client_type" Decimal.bound8
  return ⟨id, (r.get? "client_nickname").getD "", channelId, kind⟩

/-- The entries of a whole list; the first record that holds none decides. -/
def listOfRecords (records : List Record) : Except Fault (List Occupant) :=
  records.mapM ofRecord

end Occupant

namespace Channel

/-- The entry that a record holds. -/
def ofRecord (r : Record) : Except Fault Channel := do
  let id ← r.number "cid" Decimal.bound64
  return ⟨id, (r.get? "channel_name").getD ""⟩

/-- The entries of a whole list; the first record that holds none decides. -/
def listOfRecords (records : List Record) : Except Fault (List Channel) :=
  records.mapM ofRecord

end Channel

namespace Roster

section Defs

/-- The rooms so far and, for each channel id seen, the name of its room; newest id first. -/
structure Plan where
  rooms : List Room
  doors : List (Nat × String)
  deriving DecidableEq, Repr

/-- Opens the room of a channel, unless one of that name is open, and points its id there. -/
def Plan.open (p : Plan) (c : Channel) : Plan :=
  { rooms := if p.rooms.any (·.name == c.name) then p.rooms else p.rooms ++ [⟨c.name, []⟩]
    doors := (c.id, c.name) :: p.doors }

/-- Lets a nickname into the first room of a name. -/
def enter (name nickname : String) : List Room → List Room
  | [] => []
  | r :: rooms =>
    if r.name = name then { r with members := r.members ++ [nickname] } :: rooms
    else r :: enter name nickname rooms

/-- Lets a client into the room that its channel id points to, if it points anywhere. -/
def Plan.seat (p : Plan) (o : Occupant) : Plan :=
  match p.doors.lookup o.channelId with
  | none => p
  | some name => { p with rooms := enter name o.nickname p.rooms }

/-- The rooms that hold somebody, from the two lists and the ids of the hidden channels. -/
def join (clients : List Occupant) (channels : List Channel) (hidden : List Nat) : List Room :=
  let shown := channels.filter (fun c => !hidden.contains c.id)
  let opened := shown.foldl Plan.open ⟨[], []⟩
  let seated := (clients.filter (fun o => !o.isQuery)).foldl Plan.seat opened
  seated.rooms.filter (fun r => !r.members.isEmpty)

end Defs

end Roster
end VoiceRelay
