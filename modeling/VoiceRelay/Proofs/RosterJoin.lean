import VoiceRelay.Query.Roster
import Mathlib.Algebra.GroupWithZero.Nat
import Mathlib.Data.List.Induction
import Mathlib.Data.List.Nodup

/-!
# The roster by its definition

The roster is made in one pass over the channels, which opens a room for each new name and points the
channel's id there, and one pass over the clients, which lets each of them into a room. What comes out can
be said without rooms that grow: under each name stand the clients whose channel id belongs to this name,
where of several channels with one id the last one counts.

**Design.** `Roster.nameOf` is the name that an id belongs to, and `Roster.parties` are the names in the
order in which they first appear, each with its clients. Both passes are folds, so they are followed from
the end of the list: `foldl_open` and `foldl_seat` say what the rooms are after all of it.

**Results.**

- `foldl_open`: the rooms and the ids after the channels.
- `lookup_doors`: an id points to the name of the last channel that has it.
- `foldl_seat`: the rooms after the clients.
- `flatMap_guests_perm`: the clients of all names are the clients that are listed.
- `join_parties`: the roster.
-/

namespace VoiceRelay
namespace Roster

section Defs

/-- The channels that are not hidden. -/
def visible (channels : List Channel) (hidden : List Nat) : List Channel :=
  channels.filter (fun c => !hidden.contains c.id)

/-- The name of the last channel with an id. -/
def nameOf (channels : List Channel) (id : Nat) : Option String :=
  (channels.filter (fun c => c.id == id)).getLast?.map (·.name)

/-- Whether a client belongs into the roster: it sits in one of the channels and is no query identity. -/
def listed (channels : List Channel) (o : Occupant) : Bool :=
  channels.any (fun c => c.id == o.channelId) && !o.isQuery

/-- The names of the channels, each once, in the order in which they first appear. -/
def names (channels : List Channel) : List String := (channels.map (·.name)).eraseDups

/-- The clients that belong under a name. -/
def guests (clients : List Occupant) (channels : List Channel) (name : String) : List Occupant :=
  clients.filter (fun o => nameOf channels o.channelId == some name && !o.isQuery)

/-- The names that somebody belongs under, each with those who do. -/
def parties (clients : List Occupant) (channels : List Channel) : List (String × List Occupant) :=
  ((names channels).map fun name => (name, guests clients channels name)).filter
    (fun p => !p.2.isEmpty)

/-- The room of a name with the nicknames of some clients. -/
def roomOf (p : String × List Occupant) : Room := ⟨p.1, p.2.map (·.nickname)⟩

end Defs

section Channels

variable {channels : List Channel} {c : Channel} {id : Nat}

/-- A name that comes last is new or was there before. -/
theorem names_concat (channels : List Channel) (c : Channel) :
    names (channels ++ [c]) =
      if c.name ∈ channels.map (·.name) then names channels else names channels ++ [c.name] := by
  unfold names
  rw [List.map_append, List.eraseDups_append]
  by_cases h : c.name ∈ channels.map (·.name)
  · have hold : [c.name].removeAll (channels.map (·.name)) = [] := by
      rw [List.removeAll, List.filter_cons_of_neg (by simpa using h)]
      rfl
    rw [if_pos h, List.map_singleton, hold, List.eraseDups_nil, List.append_nil]
  · have hnew : [c.name].removeAll (channels.map (·.name)) = [c.name] := by
      rw [List.removeAll, List.filter_cons_of_pos (by simpa using h)]
      rfl
    rw [if_neg h, List.map_singleton, hnew]
    rfl

theorem names_nodup (channels : List Channel) : (names channels).Nodup := by
  induction channels using List.reverseRecOn with
  | nil => exact List.nodup_nil
  | append_singleton channels c ih =>
    rw [names_concat]
    split
    · exact ih
    · next hnew =>
      have hfresh : c.name ∉ names channels := fun h => hnew (List.mem_eraseDups.1 h)
      exact ih.append (List.nodup_singleton _) (List.disjoint_singleton.2 hfresh)

theorem mem_names {name : String} : name ∈ names channels ↔ ∃ c ∈ channels, c.name = name := by
  rw [names, List.mem_eraseDups, List.mem_map]

/-- **The rooms and the ids after the channels**: an empty room for each name, and the ids of the channels
from the last to the first. -/
theorem foldl_open (channels : List Channel) :
    channels.foldl Plan.open ⟨[], []⟩ =
      ⟨(names channels).map (fun name => ⟨name, []⟩),
        channels.reverse.map (fun c => (c.id, c.name))⟩ := by
  induction channels using List.reverseRecOn with
  | nil => rfl
  | append_singleton channels c ih =>
    have hany : ((names channels).map fun name => (⟨name, []⟩ : Room)).any (·.name == c.name) =
        decide (c.name ∈ channels.map (·.name)) := by
      rw [Bool.eq_iff_iff, decide_eq_true_eq, List.any_map, List.any_eq_true]
      simp [mem_names]
    rw [List.foldl_append, ih, List.foldl_cons, List.foldl_nil, Plan.open, hany, names_concat]
    by_cases h : c.name ∈ channels.map (·.name)
    · simp [h]
    · simp [h]

theorem nameOf_concat (channels : List Channel) (c : Channel) (id : Nat) :
    nameOf (channels ++ [c]) id = if c.id = id then some c.name else nameOf channels id := by
  unfold nameOf
  rw [List.filter_append]
  by_cases h : c.id = id
  · simp [h]
  · simp [h]

/-- **An id points to the name of the last channel that has it.** -/
theorem lookup_doors (channels : List Channel) (id : Nat) :
    (channels.reverse.map fun c => (c.id, c.name)).lookup id = nameOf channels id := by
  induction channels using List.reverseRecOn with
  | nil => rfl
  | append_singleton channels c ih =>
    rw [List.reverse_append, nameOf_concat, ← ih]
    by_cases h : c.id = id
    · simp [h]
    · have hne : (id == c.id) = false := beq_eq_false_iff_ne.2 (Ne.symm h)
      simp [List.lookup_cons, h, hne]

/-- An id belongs to a name if and only if a channel has it, and then the name is that of a channel. -/
theorem nameOf_isSome : (nameOf channels id).isSome = channels.any (fun c => c.id == id) := by
  rw [nameOf, Option.isSome_map, Bool.eq_iff_iff, List.any_eq_true, List.getLast?_isSome]
  simp

theorem mem_names_of_nameOf {name : String} (h : nameOf channels id = some name) :
    name ∈ names channels := by
  obtain ⟨c, hlast, rfl⟩ := Option.map_eq_some_iff.1 h
  exact mem_names.2 ⟨c, List.mem_of_mem_filter (List.mem_of_getLast? hlast), rfl⟩

end Channels

section Clients

/-- Entering a room that is there once. -/
theorem enter_map {all : List String} (hall : all.Nodup) (members : String → List String)
    (name nickname : String) :
    enter name nickname (all.map fun n => ⟨n, members n⟩) =
      all.map fun n => ⟨n, if n = name then members n ++ [nickname] else members n⟩ := by
  induction all with
  | nil => rfl
  | cons n all ih =>
    obtain ⟨hn, hall⟩ := List.nodup_cons.1 hall
    rw [List.map_cons, List.map_cons, enter]
    by_cases h : n = name
    · subst h
      have hrest : all.map (fun m => (⟨m, if m = n then members m ++ [nickname] else members m⟩ : Room)) =
          all.map fun m => ⟨m, members m⟩ :=
        List.map_congr_left fun m hm => by rw [if_neg (ne_of_mem_of_not_mem hm hn)]
      rw [if_pos rfl, if_pos rfl, hrest]
    · rw [if_neg h, if_neg h, ih hall]

/-- **The rooms after the clients**: in each room are, in their order, those whose channel id points
there. -/
theorem foldl_seat {all : List String} (hall : all.Nodup) (doors : List (Nat × String))
    (clients : List Occupant) :
    clients.foldl Plan.seat ⟨all.map (fun n => ⟨n, []⟩), doors⟩ =
      ⟨all.map fun n => ⟨n, (clients.filter fun o => doors.lookup o.channelId == some n).map
        (·.nickname)⟩, doors⟩ := by
  induction clients using List.reverseRecOn with
  | nil => rfl
  | append_singleton clients o ih =>
    rw [List.foldl_append, ih, List.foldl_cons, List.foldl_nil, Plan.seat]
    rcases hdoor : doors.lookup o.channelId with _ | name
    · simp [List.filter_append, hdoor]
    · simp only [enter_map hall, Plan.mk.injEq, and_true]
      refine List.map_congr_left fun n _ => ?_
      by_cases h : n = name
      · simp [List.filter_append, hdoor, h]
      · simp [List.filter_append, hdoor, h, Ne.symm h]

/-- The members of groups that are told by a name are those that have one of the names. -/
theorem flatMap_filter_perm {α : Type} (home : α → Option String) (members : List α)
    {all : List String} (hall : all.Nodup) :
    (all.flatMap fun name => members.filter fun o => home o == some name).Perm
      (members.filter fun o => all.any fun name => home o == some name) := by
  induction all with
  | nil => simp
  | cons name all ih =>
    obtain ⟨hname, hall⟩ := List.nodup_cons.1 hall
    -- Those that have one of the names have the first one or one of the others, and not both.
    have hfirst : (members.filter fun o => (name :: all).any fun n => home o == some n).filter
        (fun o => home o == some name) = members.filter fun o => home o == some name := by
      rw [List.filter_filter]
      refine List.filter_congr fun o _ => ?_
      cases h : home o == some name <;> simp [h]
    have hothers : (members.filter fun o => (name :: all).any fun n => home o == some n).filter
        (fun o => !(home o == some name)) = members.filter fun o => all.any fun n => home o == some n := by
      rw [List.filter_filter]
      refine List.filter_congr fun o _ => ?_
      cases h : home o == some name
      · simp [h]
      · have hhome : home o = some name := by simpa using h
        have hnone : (all.any fun n => some name == some n) = false :=
          List.any_eq_false.2 fun n hn => by simpa using (ne_of_mem_of_not_mem hn hname).symm
        simp only [hhome, hnone, Bool.not_true, Bool.false_and]
    have hsplit := List.filter_append_perm (fun o => home o == some name)
      (members.filter fun o => (name :: all).any fun n => home o == some n)
    rw [hfirst, hothers] at hsplit
    rw [List.flatMap_cons]
    exact ((ih hall).append_left _).trans hsplit

/-- **The clients of all names are the clients that are listed**, each of them once. -/
theorem flatMap_guests_perm (clients : List Occupant) (channels : List Channel) :
    ((names channels).flatMap (guests clients channels)).Perm (clients.filter (listed channels)) := by
  have hperm := flatMap_filter_perm (fun o : Occupant => nameOf channels o.channelId)
    (clients.filter fun o => !o.isQuery) (names_nodup channels)
  have hlisted : ∀ o : Occupant,
      ((names channels).any fun name => nameOf channels o.channelId == some name) =
        channels.any fun c => c.id == o.channelId := by
    intro o
    rw [← nameOf_isSome, Bool.eq_iff_iff]
    rcases hname : nameOf channels o.channelId with _ | name
    · simp
    · simpa using mem_names_of_nameOf hname
  simp only [List.filter_filter, hlisted] at hperm
  exact hperm

theorem mem_guests {clients : List Occupant} {channels : List Channel} {name : String} {o : Occupant} :
    o ∈ guests clients channels name ↔
      o ∈ clients ∧ nameOf channels o.channelId = some name ∧ o.isQuery = false := by
  simp [guests]

theorem mem_parties {clients : List Occupant} {channels : List Channel} {p : String × List Occupant} :
    p ∈ parties clients channels ↔
      p.1 ∈ names channels ∧ p.2 = guests clients channels p.1 ∧ p.2 ≠ [] := by
  rw [parties, List.mem_filter, List.mem_map]
  constructor
  · rintro ⟨⟨name, hname, rfl⟩, hsome⟩
    exact ⟨hname, rfl, by simpa using hsome⟩
  · rintro ⟨hname, hguests, hsome⟩
    exact ⟨⟨p.1, hname, Prod.ext rfl hguests.symm⟩, by simpa using hsome⟩

theorem parties_nodup (clients : List Occupant) (channels : List Channel) :
    ((parties clients channels).map (·.1)).Nodup := by
  have hall : (((names channels).map fun name => (name, guests clients channels name)).map
      (·.1)).Nodup := by
    rw [List.map_map]
    exact (List.map_id _).symm ▸ names_nodup channels
  exact hall.sublist (List.filter_sublist.map _)

/-- A name that nobody belongs under adds no client. -/
theorem flatMap_parties (clients : List Occupant) (channels : List Channel) :
    (parties clients channels).flatMap (·.2) =
      (names channels).flatMap (guests clients channels) := by
  unfold parties
  induction names channels with
  | nil => rfl
  | cons name all ih =>
    rw [List.flatMap_cons, List.map_cons, ← ih]
    by_cases hnone : guests clients channels name = []
    · rw [List.filter_cons_of_neg (by simp [hnone]), hnone, List.nil_append]
    · rw [List.filter_cons_of_pos (by simpa using hnone), List.flatMap_cons]

/-- **The roster has a room for every name that somebody belongs under.** -/
theorem join_eq (clients : List Occupant) (channels : List Channel) (hidden : List Nat) :
    join clients channels hidden = (parties clients (visible channels hidden)).map roomOf := by
  have hrooms : join clients channels hidden =
      ((names (visible channels hidden)).map fun name =>
        roomOf (name, guests clients (visible channels hidden) name)).filter
          (fun r => !r.members.isEmpty) := by
    have hseated := foldl_seat (names_nodup (visible channels hidden))
      ((visible channels hidden).reverse.map fun c => (c.id, c.name))
      (clients.filter (fun o => !o.isQuery))
    simp only [lookup_doors, List.filter_filter, ← foldl_open] at hseated
    exact congrArg (fun p : Plan => p.rooms.filter (fun r => !r.members.isEmpty)) hseated
  rw [hrooms, parties, List.filter_map, List.filter_map, List.map_map]
  congr 1
  refine List.filter_congr fun name _ => ?_
  simp [roomOf]

end Clients

section Law

/-- **The roster by its definition.** Under each name of a channel that is not hidden, in the order in which
the names first appear, stand in the order of the clients the nicknames of those who are no query identity
and whose channel id belongs to this name; names that nobody belongs under are left out. So the names are
different, no entry is empty, and the clients of all entries are, each of them once, those who are no query
identity and sit in a channel that is not hidden. -/
theorem join_parties (clients : List Occupant) (channels : List Channel) (hidden : List Nat) :
    let roster := join clients channels hidden
    let groups := parties clients (visible channels hidden)
    roster = groups.map roomOf ∧
      (roster.map (·.name)).Nodup ∧
      (∀ room ∈ roster, room.members ≠ []) ∧
      (groups.flatMap (·.2)).Perm (clients.filter (listed (visible channels hidden))) ∧
      (∀ o ∈ clients, listed (visible channels hidden) o = true →
        ∃! p, p ∈ groups ∧ o ∈ p.2) ∧
      (roster.map (·.members.length)).sum =
        (clients.filter (listed (visible channels hidden))).length := by
  intro roster groups
  have hroster : roster = groups.map roomOf := join_eq clients channels hidden
  have hperm : (groups.flatMap (·.2)).Perm (clients.filter (listed (visible channels hidden))) := by
    rw [flatMap_parties]
    exact flatMap_guests_perm clients (visible channels hidden)
  have hnames : roster.map (·.name) = groups.map (·.1) := by
    rw [hroster, List.map_map]
    rfl
  refine ⟨hroster, ?_, ?_, hperm, ?_, ?_⟩
  · rw [hnames]
    exact parties_nodup clients _
  · intro room hroom
    rw [hroster] at hroom
    obtain ⟨p, hp, rfl⟩ := List.mem_map.1 hroom
    have hsome := (List.mem_filter.1 hp).2
    simpa [roomOf] using hsome
  · intro o ho hlisted
    obtain ⟨hplace, hquery⟩ := Bool.and_eq_true_iff.1 hlisted
    rw [← nameOf_isSome] at hplace
    obtain ⟨name, hname⟩ := Option.isSome_iff_exists.1 hplace
    have hguest : o ∈ guests clients (visible channels hidden) name :=
      mem_guests.2 ⟨ho, hname, by simpa using hquery⟩
    refine ⟨(name, guests clients (visible channels hidden) name), ⟨mem_parties.2 ?_, hguest⟩, ?_⟩
    · exact ⟨mem_names_of_nameOf hname, rfl, List.ne_nil_of_mem hguest⟩
    · rintro p ⟨hp, hin⟩
      have hguests := (mem_parties.1 hp).2.1
      rw [hguests, mem_guests, hname] at hin
      have hother : p.1 = name := (Option.some.inj hin.2.1).symm
      exact Prod.ext hother (hother ▸ hguests)
  · have hlength := hperm.length_eq
    rw [List.length_flatMap] at hlength
    rw [hroster, List.map_map, ← hlength]
    simp [roomOf, Function.comp_def]

-- Two channels have one name, the id of one of them comes again with another name, and one is hidden.
example : join [⟨1, "ann", 10, 0⟩, ⟨2, "bot", 10, 1⟩, ⟨3, "bea", 12, 0⟩, ⟨4, "cyd", 11, 0⟩, ⟨5, "dan", 13, 0⟩]
    [⟨10, "Lobby"⟩, ⟨11, "Hall"⟩, ⟨12, "Lobby"⟩, ⟨10, "Hall"⟩, ⟨13, "Attic"⟩] [13] =
    [⟨"Lobby", ["bea"]⟩, ⟨"Hall", ["ann", "cyd"]⟩] := by
  decide

end Law

end Roster
end VoiceRelay
