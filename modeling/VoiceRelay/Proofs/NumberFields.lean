import VoiceRelay.Proofs.Numerals
import VoiceRelay.Proofs.Reconnecting

/-!
# Number fields of records

An entry of the client list has three numbers, which are looked for in their order: who it is, in which
channel, and of which kind. A field must be there and spell a number that stays below its bound; the first
one that does not decides what the fault says. A list of records gives a list of entries or the fault of the
first record that gives none. The fault is found when the whole reply has been read, so the connection stays
in the slot, though a fault of this kind that comes up while a command runs would lose it.

**Design.** `Record.Holds` and `Record.Offends` are the two sides of a demand on a field, and `FirstBad` is
the rule by which one of several faults is chosen, for the fields of a record as for the records of a list.

**Results.**

- `number_eq_ok_iff`, `number_eq_error_iff`: which fields hold a number, and what is said of the others.
- `mapM_eq_ok_iff`, `mapM_eq_error_iff`: a list is gone through up to the first fault.
- `ofRecord_eq_ok_iff`, `ofRecord_eq_error_iff`: which records are entries, and what is said of the others.
- `perform_keeps`: a command that comes back with records leaves its connection in the slot.
- `listed_or_first_fault`: what asking for the client list comes to.
-/

namespace VoiceRelay

section Defs

/-- The first element of a list that is not good has this fault. -/
def FirstBad {α : Type} (good : α → Prop) (bad : α → Fault → Prop) (xs : List α) (f : Fault) :
    Prop :=
  ∃ front x back, xs = front ++ x :: back ∧ (∀ y ∈ front, good y) ∧ bad x f

/-- What is asked of a field: that it holds a number below a bound. -/
structure Record.Demand where
  field : String
  bound : Nat

/-- A field holds a number. -/
def Record.Holds (r : Record) (d : Record.Demand) (n : Nat) : Prop :=
  ∃ written, r.get? d.field = some written ∧ Decimal.Spells written.toList n ∧ n < d.bound

/-- A field does not hold a number, and what the fault says of it. -/
inductive Record.Offends (r : Record) (d : Record.Demand) : Fault → Prop
  | missing : r.get? d.field = none → Offends r d (.malformed ("Feld '" ++ d.field ++ "' fehlt"))
  | unread {written : String} : r.get? d.field = some written →
      (∀ n < d.bound, ¬ Decimal.Spells written.toList n) →
      Offends r d (.malformed ("Feld '" ++ d.field ++ "' ist keine Zahl: '" ++ written ++ "'"))

/-- What is asked of a record of the client list, in the order in which it is asked. -/
def Occupant.demands : List Record.Demand :=
  [⟨"clid", Decimal.bound64⟩, ⟨"cid", Decimal.bound64⟩, ⟨"client_type", Decimal.bound8⟩]

/-- A client before and after a call that leaves its connection in the slot: none was given up, one was
opened only if there was none, and the next command will open none. -/
structure Client.Keeps (before after : Client) : Prop where
  slot : ∃ l, after.slot = some l ∧ ∀ l₀, before.slot = some l₀ → ∃ events, l₀.Continues l events
  past : after.past = before.past
  dialled : after.dialled = before.dialled + if before.slot.isSome then 0 else 1
  ready : ∀ patience later text, (after.perform patience later text).client.dialled = after.dialled

end Defs

section Choice

variable {α β : Type} {good : α → Prop} {bad : α → Fault → Prop} {x : α} {xs : List α} {f : Fault}

theorem FirstBad.nil : ¬ FirstBad good bad [] f := by
  rintro ⟨front, x, back, hsplit, -, -⟩
  cases front <;> cases hsplit

theorem FirstBad.cons_iff :
    FirstBad good bad (x :: xs) f ↔ bad x f ∨ good x ∧ FirstBad good bad xs f := by
  constructor
  · rintro ⟨front, y, back, hsplit, hfront, hbad⟩
    cases front with
    | nil =>
      cases hsplit
      exact Or.inl hbad
    | cons z front =>
      cases hsplit
      exact Or.inr ⟨hfront x List.mem_cons_self,
        front, y, back, rfl, fun w hw => hfront w (List.mem_cons_of_mem x hw), hbad⟩
  · rintro (hbad | ⟨hgood, front, y, back, rfl, hfront, hbad⟩)
    · exact ⟨[], x, xs, rfl, List.forall_mem_nil _, hbad⟩
    · exact ⟨x :: front, y, back, rfl, List.forall_mem_cons.2 ⟨hgood, hfront⟩, hbad⟩

/-- Two steps come to a result if and only if both do. -/
theorem bind_eq_ok_iff {first : Except Fault α} {second : α → Except Fault β} {y : β} :
    first >>= second = .ok y ↔ ∃ x, first = .ok x ∧ second x = .ok y := by
  cases first <;> simp [bind, Except.bind]

/-- Two steps fail in the first one, or in the second one after the first. -/
theorem bind_eq_error_iff {first : Except Fault α} {second : α → Except Fault β} :
    first >>= second = .error f ↔ first = .error f ∨ ∃ x, first = .ok x ∧ second x = .error f := by
  cases first <;> simp [bind, Except.bind]

variable (step : α → Except Fault β)

/-- **A list is gone through** if a step can be made from each of its elements. -/
theorem mapM_eq_ok_iff {ys : List β} :
    xs.mapM step = .ok ys ↔ List.Forall₂ (fun x y => step x = .ok y) xs ys := by
  induction xs generalizing ys with
  | nil =>
    rw [List.mapM_nil, List.forall₂_nil_left_iff]
    exact ⟨fun h => (Except.ok.inj h).symm, fun h => congrArg Except.ok h.symm⟩
  | cons x xs ih =>
    simp only [List.mapM_cons, bind_eq_ok_iff, ih, List.forall₂_cons_left_iff, pure, Except.pure,
      Except.ok.injEq, exists_and_left, eq_comm (a := ys)]

/-- **The fault of a list is that of its first element from which no step can be made.** -/
theorem mapM_eq_error_iff :
    xs.mapM step = .error f ↔
      FirstBad (fun x => ∃ y, step x = .ok y) (fun x f => step x = .error f) xs f := by
  induction xs with
  | nil =>
    rw [List.mapM_nil]
    exact ⟨fun h => by (cases h), fun h => absurd h FirstBad.nil⟩
  | cons x xs ih =>
    rw [List.mapM_cons, FirstBad.cons_iff, bind_eq_error_iff, ← ih]
    simp only [bind_eq_error_iff, pure, Except.pure, reduceCtorEq, and_false, exists_false, or_false,
      exists_and_right]

end Choice

section Fields

variable {r : Record} {d : Record.Demand} {f : Fault} {n : Nat}

theorem number_eq_ok_iff : r.number d.field d.bound = .ok n ↔ r.Holds d n := by
  unfold Record.number Record.Holds
  cases hget : r.get? d.field with
  | none => simp
  | some written =>
    simp only [← Decimal.read?_eq_some_iff, Option.some.injEq, exists_eq_left']
    cases Decimal.read? d.bound written.toList <;> simp

theorem number_eq_error_iff : r.number d.field d.bound = .error f ↔ r.Offends d f := by
  unfold Record.number
  constructor
  · intro h
    split at h
    · next hnone =>
      cases h
      exact .missing hnone
    · next written hget =>
      split at h
      · next hnone =>
        cases h
        exact .unread hget (Decimal.read?_eq_none_iff.1 hnone)
      · cases h
  · intro h
    cases h with
    | missing hnone => simp only [hnone]
    | unread hget hnone => simp only [hget, Decimal.read?_eq_none_iff.2 hnone]

namespace Occupant

/-- **Which records are entries.** -/
theorem ofRecord_eq_ok_iff {o : Occupant} :
    ofRecord r = .ok o ↔
      r.Holds ⟨"clid", Decimal.bound64⟩ o.id ∧ r.Holds ⟨"cid", Decimal.bound64⟩ o.channelId ∧
        r.Holds ⟨"client_type", Decimal.bound8⟩ o.kind ∧
        o.nickname = (r.get? "client_nickname").getD "" := by
  simp only [ofRecord, bind_eq_ok_iff, ← number_eq_ok_iff, pure, Except.pure, Except.ok.injEq]
  constructor
  · rintro ⟨id, hid, channelId, hchannel, kind, hkind, rfl⟩
    exact ⟨hid, hchannel, hkind, rfl⟩
  · rintro ⟨hid, hchannel, hkind, hnickname⟩
    exact ⟨o.id, hid, o.channelId, hchannel, o.kind, hkind, by rw [← hnickname]⟩

/-- **What is said of a record that is no entry.** -/
theorem ofRecord_eq_error_iff :
    ofRecord r = .error f ↔ FirstBad (fun d => ∃ n, r.Holds d n) r.Offends demands f := by
  simp only [ofRecord, bind_eq_error_iff, demands, FirstBad.cons_iff, FirstBad.nil, ← number_eq_ok_iff,
    ← number_eq_error_iff, pure, Except.pure, reduceCtorEq, and_false, exists_false, or_false,
    exists_and_right]

end Occupant

end Fields

section Asking

variable {c : Client}

/-- **A command that comes back with records leaves its connection in the slot**: the one that it found there,
or the one that it opened because there was none. -/
theorem Client.perform_keeps {text : String} (ha : Asked text) (hq : text ≠ "quit") {patience : Deadline}
    {now : Nat} {records : List Record} (h : (c.perform patience now text).result = some (.ok records)) :
    c.Keeps (c.perform patience now text).client := by
  cases hslot : c.slot with
  | none =>
    obtain ⟨hdialled, hopens⟩ := perform_opens (c := c) rfl hslot ha hq patience now
    rw [h] at hopens
    cases hopens with
    | cut _ _ _ hne => exact absurd rfl (hne records)
    | @whole l _ hlinks hkept _ =>
      have hpast : (c.perform patience now text).client.past.reverse = c.past.reverse := by
        simpa [links, hkept, hslot] using hlinks
      exact
        { slot := ⟨l, hkept, fun l₀ hl₀ => by simp [hslot] at hl₀⟩
          past := List.reverse_injective hpast
          dialled := by rw [hdialled, hslot]; rfl
          ready := fun _ _ _ => (perform_uses hkept _ _ _).1 }
  | some l₀ =>
    obtain ⟨hdialled, huses⟩ := perform_uses hslot patience now text
    rw [h] at huses
    cases huses with
    | @keeps l events _ hkept hpast hcontinues _ =>
      exact
        { slot := by
            refine ⟨l, hkept, fun l₁ hl₁ => ?_⟩
            rw [hslot] at hl₁
            cases hl₁
            exact ⟨events, hcontinues⟩
          past := hpast
          dialled := by rw [hdialled, hslot]; rfl
          ready := fun _ _ _ => (perform_uses hkept _ _ _).1 }

namespace Occupant

/-- **Asking for the client list.** A record is an entry if and only if its fields `clid`, `cid` and
`client_type` are there and the value of each is one plus sign or none and then digits, any number of them, of
a number below 2 to the 64, 64 and 8. The entry has these numbers and the nickname of the record, which is
empty if there is none. The fault of a record that is no entry names the first of the three fields that does
not hold such a number. If the reply to the command has brought records, the answer are the entries of all of
them, one for each, or the fault of the first record that is no entry; with either answer the connection stays
in the slot. -/
theorem listed_or_first_fault :
    (∀ (r : Record) (o : Occupant), ofRecord r = .ok o ↔
      r.Holds ⟨"clid", Decimal.bound64⟩ o.id ∧ r.Holds ⟨"cid", Decimal.bound64⟩ o.channelId ∧
        r.Holds ⟨"client_type", Decimal.bound8⟩ o.kind ∧
        o.nickname = (r.get? "client_nickname").getD "") ∧
    (∀ (r : Record) (f : Fault), ofRecord r = .error f ↔
      FirstBad (fun d => ∃ n, r.Holds d n) r.Offends demands f) ∧
    ∀ (c : Client) (patience : Deadline) (now : Nat) (records : List Record),
      (c.perform patience now "clientlist").result = some (.ok records) →
      let call := c.serve patience now .occupants
      (∀ list, call.result = some (.ok (.occupants list)) ↔
        List.Forall₂ (fun r o => ofRecord r = .ok o) records list) ∧
      (∀ f, call.result = some (.error f) ↔
        FirstBad (fun r => ∃ o, ofRecord r = .ok o) (fun r f => ofRecord r = .error f) records f) ∧
      c.Keeps call.client := by
  refine ⟨fun r o => ofRecord_eq_ok_iff, fun r f => ofRecord_eq_error_iff, ?_⟩
  intro c patience now records h
  have hserve := Client.serve_of_command (c := c) (r := .occupants) rfl (by decide) patience now
  have hresult : (c.serve patience now .occupants).result =
      some ((listOfRecords records).map Answer.occupants) := by
    rw [hserve, h]
    rfl
  have hclient : (c.serve patience now .occupants).client =
      (c.perform patience now "clientlist").client := by
    rw [hserve]
  refine ⟨fun list => ?_, fun f => ?_, ?_⟩
  · rw [hresult, ← mapM_eq_ok_iff, ← listOfRecords]
    cases listOfRecords records <;> simp [Except.map]
  · rw [hresult, ← mapM_eq_error_iff, ← listOfRecords]
    cases listOfRecords records <;> simp [Except.map]
  · rw [hclient]
    exact Client.perform_keeps .clients (by decide) h

/-- The second of three records has a channel number that is too large by one and a kind that is too large,
and the third one has no number at all. -/
theorem listed_or_first_fault_second_record :
    let reply := "clid=+007 cid=2 client_type=255|clid=8 cid=18446744073709551616 client_type=256|clid="
    let peer : Peer := ⟨[.data (Utf8.encode (reply ++ "\n\rerror id=0 msg=ok\n\r").toList)], none⟩
    let account : Credentials := ⟨"serveradmin", "pw", "127.0.0.1", 10011, 1⟩
    let c : Client := ⟨account, [], .closed, some (.ofPeer peer), [], 1⟩
    let fault := Fault.malformed "Feld 'cid' ist keine Zahl: '18446744073709551616'"
    let call := c.serve none 0 .occupants
    call.result = some (.error fault) ∧ fault.losesLink = true ∧ c.Keeps call.client := by
  intro reply peer account c fault call
  have hrecords : (c.perform none 0 "clientlist").result = some (.ok
      [⟨[("clid", "+007"), ("cid", "2"), ("client_type", "255")]⟩,
        ⟨[("clid", "8"), ("cid", "18446744073709551616"), ("client_type", "256")]⟩,
        ⟨[("clid", "")]⟩]) := by
    decide +kernel
  obtain ⟨-, hfault, hkeeps⟩ := listed_or_first_fault.2.2 c none 0 _ hrecords
  refine ⟨(hfault fault).2 ⟨[_], _, [_], rfl, ?_, ?_⟩, rfl, hkeeps⟩
  · exact List.forall_mem_singleton.2 ⟨⟨7, "", 2, 255⟩, by decide +kernel⟩
  · decide +kernel

end Occupant

end Asking

end VoiceRelay
