import VoiceRelay.Proofs.SharedConnection
import VoiceRelay.Proofs.Stalling

/-!
# The slot is used, emptied and filled again

A command that finds a connection in the slot is sent on it and opens no stream. It leaves the connection
there unless its exchange ended in a fault that loses the connection, or its caller gave up. A command that
finds no connection opens the next stream, and everything is said on it from the beginning: greeting,
login, choice of server, and only then the command.

**Design.** `Client.Uses` and `Client.Opens` are the two cases, with one constructor for each way in which a
call ends. Whether a session ever gives its greeting does not depend on when it is opened
(`greet_any_time`), so `Peer.greets` asks only once.

**Results.**

- `perform_uses`, `perform_opens`: what a command does with the slot.
- `Sound.answers`: a caller without patience of its own gets a result if all sessions greet.
-/

namespace VoiceRelay

section Defs

/-- Whether the greeting of a session comes or fails; else whoever waits for it waits for good. -/
def Peer.greets (p : Peer) : Bool := ((Link.ofPeer p).greet none 0).result.isSome

/-- A connection but for what was said on it. -/
def Link.unlogged (l : Link) : Link := { l with log := [] }

/-- What was said on a connection obeys the grammar, and these are the commands that were sent. -/
def Link.Says (k : Credentials) (l : Link) (commands : List String) : Prop :=
  ∃ opening xs, l.transcript = said opening xs ∧ Dialogue k opening xs ∧
    xs.map (·.command) = commands

/-- What the call of a command does that finds a connection in the slot. -/
inductive Client.Uses (l : Link) (before after : Client) :
    Option (Except Fault (List Record)) → Prop
  | keeps {l' : Link} {events : List Event} {result : Except Fault (List Record)} :
      after.slot = some l' → after.past = before.past → l.Continues l' events →
      (∀ f, result = .error f → f.losesLink = false) → Uses l before after (some result)
  | loses {l' : Link} {events : List Event} {f : Fault} :
      after.slot = none → after.past = l' :: before.past → l.Continues l' events →
      f.losesLink = true → Uses l before after (some (.error f))
  | leaves {l' : Link} {events : List Event} :
      after.slot = none → after.past = l' :: before.past → l.Continues l' events →
      Uses l before after none

/-- What the call of a command does that finds the slot empty: it has no stream, or it says all from the
beginning on a new connection, each command after the one before it was accepted. -/
inductive Client.Opens (k : Credentials) (text : String) (before after : Client) :
    Option (Except Fault (List Record)) → Prop
  | unopened {f : Fault} : before.dial.1 = .error f → after.links = before.links →
      Opens k text before after (some (.error f))
  | cut {l : Link} {commands : List String} {result : Option (Except Fault (List Record))} :
      after.links = before.links ++ [l] → l.Says k commands →
      commands <+: [k.login, k.use, text] → (∀ records, result ≠ some (.ok records)) →
      Opens k text before after result
  | whole {l : Link} {records : List Record} : after.links = before.links ++ [l] →
      after.slot = some l → l.Says k [k.login, k.use, text] →
      Opens k text before after (some (.ok records))

/-- What signing in comes to on a client without a connection. -/
inductive Client.Enters (k : Credentials) (before after : Client) :
    Option (Except Fault Link) → Prop
  | unopened {f : Fault} : before.dial.1 = .error f → after.links = before.links →
      Enters k before after (some (.error f))
  | cut {l : Link} {commands : List String} {result : Option (Except Fault Link)} :
      after.links = before.links ++ [l] → l.Says k commands → commands <+: [k.login, k.use] →
      (∀ l, result ≠ some (.ok l)) → Enters k before after result
  | ready {l : Link} {opening : List String} {xs : List Exchange} : after.links = before.links →
      l.Ready k opening xs → xs.map (·.command) = [k.login, k.use] →
      Enters k before after (some (.ok l))

end Defs

section Greeting

theorem listen_any_time (lines : Nat) (r : Reader) (shut : Bool) (now now' : Nat)
    (script : List Step) :
    let out := listen lines none r shut now script
    let out' := listen lines none r shut now' script
    out.heard = out'.heard ∧ out.reader = out'.reader ∧ out.script = out'.script ∧
      out.inboxShut = out'.inboxShut := by
  induction script generalizing r shut now now' with
  | nil => exact ⟨rfl, rfl, rfl, rfl⟩
  | cons s script ih =>
    cases s with
    | data octets =>
      simp only [listen]
      split
      · exact ih r shut now now'
      · split
        · exact ⟨rfl, rfl, rfl, rfl⟩
        · exact ih _ shut now now'
    | silence length => exact ih r shut (now + length) (now' + length)
    | silentUntil time => exact ih r shut (max now time) (max now' time)
    | awaitLines count =>
      simp only [listen]
      split
      · exact ih r shut now now'
      · exact ⟨rfl, rfl, rfl, rfl⟩
    | trouble cause => exact ⟨rfl, rfl, rfl, rfl⟩
    | finish =>
      simp only [listen]
      split <;> exact ⟨rfl, rfl, rfl, rfl⟩
    | shutInbox => exact ih r true now now'

namespace Link

/-- What is heard does not depend on the time, if the listener waits as long as it takes. -/
theorem hear_any_time {l l' : Link} (h : l.unlogged = l'.unlogged) (now now' : Nat) :
    (l.hear none now).1 = (l'.hear none now').1 ∧
      (l.hear none now).2.2.unlogged = (l'.hear none now').2.2.unlogged := by
  have hlines : l.unlogged.lines = l'.unlogged.lines := congrArg lines h
  change l.lines = l'.lines at hlines
  obtain ⟨reader, script, accepted, writes, shut, log⟩ := l
  obtain ⟨_, _, _, _, _, log'⟩ := l'
  cases h
  unfold hear
  rw [hlines]
  simp only
  rcases reader.pop with _ | ⟨heard, r⟩
  · generalize Link.lines _ = lines
    have hlisten := listen_any_time lines reader shut now now' script
    simp only
    generalize listen lines none reader shut now script = out at *
    generalize listen lines none reader shut now' script = out' at *
    obtain ⟨heard, time, r, rest, shut'⟩ := out
    obtain ⟨_, _, _, _, _⟩ := out'
    obtain ⟨rfl, rfl, rfl, rfl⟩ := hlisten
    cases heard <;> exact ⟨rfl, rfl⟩
  · cases heard <;> exact ⟨rfl, rfl⟩

/-- **Whether a greeting comes does not depend on the time.** -/
theorem greet_any_time (l : Link) (now now' : Nat) :
    (l.greet none now).result = (l.greet none now').result := by
  have hfirst := hear_any_time (rfl : l.unlogged = l.unlogged) now now'
  unfold greet
  rcases h : l.hear none now with ⟨heard, time, l₁⟩
  rcases h' : l.hear none now' with ⟨heard', time', l₁'⟩
  rw [h, h'] at hfirst
  obtain ⟨rfl, hlink⟩ := hfirst
  cases heard with
  | nothing | ended | failed _ => rfl
  | line first =>
    simp only
    split
    · have hsecond := hear_any_time hlink time time'
      rcases h₂ : l₁.hear none time with ⟨heard, time₂, l₂⟩
      rcases h₂' : l₁'.hear none time' with ⟨heard', time₂', l₂'⟩
      rw [h₂, h₂'] at hsecond
      obtain ⟨rfl, -⟩ := hsecond
      cases heard <;> rfl
    · rfl

end Link

end Greeting

namespace Client

variable {k : Credentials} {dials : List Dial} {c : Client} {l : Link}

section Opening

theorem dial_cases (c : Client) :
    c.dial.2.links = c.links ∧ c.dial.2.slot = c.slot ∧ c.dial.2.credentials = c.credentials ∧
      c.dial.2.dialled = c.dialled + 1 ∧
      ∀ l, c.dial.1 = .ok l → l.transcript = [] ∧ ∃ p, .ok p ∈ c.dials ∧ l = .ofPeer p := by
  unfold dial
  split
  · exact ⟨rfl, rfl, rfl, rfl, fun l h => by cases h⟩
  · exact ⟨rfl, rfl, rfl, rfl, fun l h => by cases h⟩
  · next p rest hdials =>
    refine ⟨rfl, rfl, rfl, rfl, fun l h => ?_⟩
    cases h
    exact ⟨rfl, p, by simp [hdials], rfl⟩

/-- If all sessions greet, a caller without patience of its own gets a result. -/
theorem Sound.answers (h : c.Sound k dials) (hgreets : ∀ p, .ok p ∈ dials → p.greets = true)
    (now : Nat) (r : Request) : (c.serve none now r).result ≠ none := by
  intro hnone
  obtain ⟨-, -, -, l, hl, hstalls⟩ := (c.serve_returns now r).1.1 hnone
  obtain ⟨-, p, hp, rfl⟩ := c.dial_cases.2.2.2.2 l hl
  rw [h.dials_eq] at hp
  have hgreet := hgreets p (List.mem_of_mem_drop hp)
  rw [Peer.greets, Link.greet_any_time _ 0 now, hstalls] at hgreet
  cases hgreet

theorem links_giveUp (h : c.slot = none) (l : Link) : (c.giveUp l).links = c.links ++ [l] := by
  simp [links, giveUp, h]

/-- What a command adds to the commands on a connection that is ready for it. -/
theorem command_spoken {opening : List String} {xs : List Exchange} (h : l.Ready k opening xs)
    {text : String} (ha : Allowed k xs.length text) (hq : text ≠ "quit") (timeLimit : Nat)
    (patience : Deadline) (now : Nat) :
    let turn := l.command timeLimit patience now text
    (∃ commands, commands <+: xs.map (·.command) ++ [text] ∧ turn.link.Says k commands) ∧
      ∀ records, turn.result = some (.ok records) →
        ∃ x, x.command = text ∧ turn.link.Ready k opening (xs ++ [x]) := by
  rcases l.command_gives timeLimit patience now text with
    ⟨t, hr, hc⟩ | ⟨x, rfl, hb, hc, hgives⟩
  · refine ⟨⟨_, List.prefix_append _ _, opening, xs, ?_, h.dialogue, rfl⟩, fun records hok => ?_⟩
    · rw [hc.transcript_eq, h.transcript_eq, List.append_nil]
    · rw [hr] at hok
      cases hok
  · generalize l.command timeLimit patience now x.command = turn at *
    have htr : turn.link.transcript = said opening (xs ++ [x]) := by
      rw [hc.transcript_eq, h.transcript_eq, said_push]
    have hd : Dialogue k opening (xs ++ [x]) := h.dialogue.push h.settled h.welcomed ha hb
    refine ⟨⟨_, List.prefix_refl _, opening, xs ++ [x], htr, hd, by simp⟩, fun records hok => ?_⟩
    rw [hok] at hgives
    cases hgives with
    | @accepted s hs haccepted =>
      exact ⟨x, rfl, htr, hd, h.settled.push ⟨s, hs, fun _ => haccepted, hq⟩, h.welcomed⟩

/-- **Signing in** says everything from the beginning on a new connection. -/
theorem signIn_enters (hk : c.credentials = k) (hslot : c.slot = none) (patience : Deadline)
    (now : Nat) :
    (c.signIn patience now).2.2.dialled = c.dialled + 1 ∧
      (c.signIn patience now).2.2.slot = none ∧
      c.Enters k (c.signIn patience now).2.2 (c.signIn patience now).1 := by
  obtain ⟨hlinks, hslot', hk', hdialled, hfresh⟩ := c.dial_cases
  unfold signIn
  rcases hd : c.dial with ⟨f | l, c₁⟩
  all_goals
    rw [hd] at hlinks hslot' hk' hdialled hfresh
    simp only at hlinks hslot' hk' hdialled hfresh ⊢
  · exact ⟨hdialled, hslot'.trans hslot, .unopened (by rw [hd]) hlinks⟩
  · -- Every way out of the handshake gives the new connection up with what was said on it.
    have hgiven {l' : Link} {commands : List String} {result : Option (Except Fault Link)}
        (hspoken : l'.Says k commands) (hbegun : commands <+: [k.login, k.use])
        (hne : ∀ l, result ≠ some (.ok l)) :
        (c₁.giveUp l').dialled = c.dialled + 1 ∧ (c₁.giveUp l').slot = none ∧
          c.Enters k (c₁.giveUp l') result :=
      ⟨hdialled, hslot'.trans hslot,
        .cut (by rw [links_giveUp (hslot'.trans hslot), hlinks]) hspoken hbegun hne⟩
    obtain ⟨opening, hgreet, hc⟩ := l.greet_continues patience now
    generalize l.greet patience now = greeted at *
    have htr : greeted.link.transcript = said opening [] := by
      rw [hc.transcript_eq, (hfresh l rfl).1]
      simp [said]
    have hspoken : greeted.link.Says k [] := ⟨opening, [], htr, .nil k hgreet.length_le, rfl⟩
    rcases hres : greeted.result with _ | f | ⟨⟩
    all_goals
      rw [hres] at hgreet
      simp only
    · exact hgiven hspoken List.nil_prefix (by simp)
    · exact hgiven hspoken List.nil_prefix (by simp)
    · cases hgreet with
      | whole ho hb =>
      have hready : greeted.link.Ready k opening [] :=
        ⟨htr, .nil k (by simp [ho]), .nil, _, _, ho, hb⟩
      rw [hk', hk]
      obtain ⟨⟨commands, hcommands, hspoken⟩, hlogin⟩ := command_spoken hready rfl (login_ne_quit k)
        Link.defaultTimeLimit patience greeted.now
      generalize greeted.link.command Link.defaultTimeLimit patience greeted.now k.login = known
        at *
      have hbegun : commands <+: [k.login, k.use] := hcommands.trans (List.prefix_append _ [k.use])
      rcases hres : known.result with _ | f | records
      all_goals simp only
      · exact hgiven hspoken hbegun (by simp)
      · exact hgiven hspoken hbegun (by simp)
      · obtain ⟨x, hx, hready⟩ := hlogin records hres
        obtain ⟨⟨commands, hcommands, hspoken⟩, huse⟩ := command_spoken hready rfl (use_ne_quit k)
          Link.defaultTimeLimit patience known.now
        generalize known.link.command Link.defaultTimeLimit patience known.now k.use = ready at *
        have hbegun : commands <+: [k.login, k.use] := by simpa [hx] using hcommands
        rcases hres : ready.result with _ | f | records
        all_goals simp only
        · exact hgiven hspoken hbegun (by simp)
        · exact hgiven hspoken hbegun (by simp)
        · obtain ⟨y, hy, hready⟩ := huse records hres
          exact ⟨hdialled, hslot'.trans hslot, .ready hlinks hready (by simp [hx, hy])⟩

end Opening

section Commands

/-- Running a command on a connection that was taken out of the slot. -/
theorem runOn_uses (c : Client) (l : Link) (hslot : c.slot = none) (patience : Deadline) (now : Nat)
    (text : String) :
    let call := c.runOn l patience now text
    call.client.dialled = c.dialled ∧ Uses l c call.client call.result ∧
      call.client.links = c.links ++ [(l.command Link.defaultTimeLimit patience now text).link] ∧
      ∀ records, call.result = some (.ok records) →
        (l.command Link.defaultTimeLimit patience now text).result = some (.ok records) ∧
        call.client.slot = some (l.command Link.defaultTimeLimit patience now text).link := by
  have hcontinues : ∃ events, l.Continues
      (l.command Link.defaultTimeLimit patience now text).link events := by
    rcases l.command_gives Link.defaultTimeLimit patience now text with ⟨t, -, hc⟩ | ⟨x, -, -, hc, -⟩
    · exact ⟨_, hc⟩
    · exact ⟨_, hc⟩
  obtain ⟨events, hc⟩ := hcontinues
  have hgiven := links_giveUp hslot (l.command Link.defaultTimeLimit patience now text).link
  unfold runOn
  simp only
  generalize l.command Link.defaultTimeLimit patience now text = turn at *
  rcases hres : turn.result with _ | f | records
  all_goals simp only
  · exact ⟨rfl, .leaves hslot rfl hc, hgiven, by simp⟩
  · split
    · next hf => exact ⟨rfl, .loses hslot rfl hc hf, hgiven, by simp⟩
    · next hf =>
      exact ⟨rfl, .keeps rfl rfl hc (by simpa using hf), by simp [links, hslot], by simp⟩
  · exact ⟨trivial, .keeps rfl rfl hc (by simp), by simp [links, hslot], by simp⟩

/-- **A command that finds a connection** is sent on it and opens no stream. -/
theorem perform_uses (hslot : c.slot = some l) (patience : Deadline) (now : Nat) (text : String) :
    let call := c.perform patience now text
    call.client.dialled = c.dialled ∧ Uses l c call.client call.result := by
  obtain ⟨hdialled, huses, -⟩ := runOn_uses { c with slot := none } l rfl patience now text
  unfold perform
  rw [hslot]
  refine ⟨hdialled, ?_⟩
  simp only at huses ⊢
  generalize runOn { c with slot := none } l patience now text = call at *
  obtain ⟨result, now', after⟩ := call
  simp only at huses ⊢
  cases huses with
  | keeps h₁ h₂ h₃ h₄ => exact .keeps h₁ h₂ h₃ h₄
  | loses h₁ h₂ h₃ h₄ => exact .loses h₁ h₂ h₃ h₄
  | leaves h₁ h₂ h₃ => exact .leaves h₁ h₂ h₃

/-- **A command that finds no connection** opens the next stream and says everything from the beginning. -/
theorem perform_opens (hk : c.credentials = k) (hslot : c.slot = none) {text : String}
    (ha : Asked text) (hq : text ≠ "quit") (patience : Deadline) (now : Nat) :
    let call := c.perform patience now text
    call.client.dialled = c.dialled + 1 ∧ c.Opens k text call.client call.result := by
  obtain ⟨hdialled, hslot', henters⟩ := signIn_enters hk hslot patience now
  unfold perform
  rw [hslot]
  simp only
  generalize c.signIn patience now = signed at *
  obtain ⟨result, now₁, c₁⟩ := signed
  simp only at hdialled hslot' henters ⊢
  cases henters with
  | unopened hdial hlinks => exact ⟨hdialled, .unopened hdial hlinks⟩
  | @cut l commands _ hlinks hspoken hcommands hne =>
    have hbegun : commands <+: [k.login, k.use, text] :=
      hcommands.trans (List.prefix_append [k.login, k.use] [text])
    rcases result with _ | f | l'
    · exact ⟨hdialled, .cut hlinks hspoken hbegun (by simp)⟩
    · exact ⟨hdialled, .cut hlinks hspoken hbegun (by simp)⟩
    · exact absurd rfl (hne l')
  | @ready l opening xs hlinks hready hcommands =>
    have hlength : xs.length = 2 := by simpa using congrArg List.length hcommands
    obtain ⟨⟨commands, hprefix, hspoken⟩, hwhole⟩ := command_spoken hready
      (allowed_of_asked (Nat.le_of_eq hlength.symm) ha) hq Link.defaultTimeLimit patience now₁
    obtain ⟨hrun, -, hadded, hok⟩ := runOn_uses c₁ l hslot' patience now₁ text
    rw [hcommands] at hprefix
    rw [hlinks] at hadded
    refine ⟨hrun.trans hdialled, ?_⟩
    rcases hres : (c₁.runOn l patience now₁ text).result with _ | f | records
    · exact .cut hadded hspoken hprefix (by simp)
    · exact .cut hadded hspoken hprefix (by simp)
    · obtain ⟨hresult, hkept⟩ := hok records hres
      obtain ⟨x, hx, hready'⟩ := hwhole records hresult
      exact .whole hadded hkept ⟨opening, xs ++ [x], hready'.transcript_eq, hready'.dialogue,
        by simp [hcommands, hx]⟩

end Commands

end Client

end VoiceRelay
