import VoiceRelay.Proofs.Conversation
import Mathlib.Data.List.Forall2

/-!
# The shared connection stays in step

Between two calls the connection in the slot has said: the lines of the greeting, then login and
choice of server, both accepted, then commands, each with its whole reply. Connections that were given
up have said a beginning of this, and nobody reads from them again.

**Design.** `Client.Sound` is the invariant of the client between calls: it assigns to every opened
session the connection that reads it. `Client.Lends` is the same with one connection taken out, as it
is while a call runs.

**Results.**

- `signIn_sound`, `runOn_sound`, `leave_sound`: every way out of a call keeps the invariant.
- `serve_sound`: a served request keeps it, whatever becomes of the request.
- `serve_learns`: what a request returns was read after its own command, on the connection on which
  that was sent.
-/

namespace VoiceRelay

section Defs

/-- The sessions among the first `n` dials. -/
def opened (dials : List Dial) (n : Nat) : List Peer := (dials.take n).filterMap Except.toOption

/-- The client between two calls. -/
structure Client.Sound (k : Credentials) (dials : List Dial) (c : Client) : Prop where
  credentials_eq : c.credentials = k
  dials_eq : c.dials = dials.drop c.dialled
  follows : List.Forall₂ Link.Follows (opened dials c.dialled) c.links
  past : ∀ l ∈ c.past, l.Speaks k
  slot : ∀ l, c.slot = some l → l.InSync k

/-- The client during a call, with a connection taken out. -/
structure Client.Lends (k : Credentials) (dials : List Dial) (c : Client) (l : Link) : Prop where
  credentials_eq : c.credentials = k
  dials_eq : c.dials = dials.drop c.dialled
  follows : ∃ ps p, opened dials c.dialled = ps ++ [p] ∧
    List.Forall₂ Link.Follows ps c.past.reverse ∧ l.Follows p
  past : ∀ l ∈ c.past, l.Speaks k
  slot : c.slot = none

/-- What the connection of the next command has said before that command: that of the slot, or a
fresh one during and after signing in. -/
def Client.Start (k : Credentials) (c : Client) (start : List Event) : Prop :=
  match c.slot with
  | some l => start = l.transcript
  | none => ∃ opening xs, start = said opening xs ∧ Dialogue k opening xs ∧ Settled xs ∧
      xs.length ≤ 2

/-- What a call of a command returns, and from which lines. Records and refusals come from the lines
of one exchange, the last one on its connection; its command is that of the call or, while it signs
in, one of signing in. -/
inductive Client.Learns (k : Credentials) (before after : Client) (text : String) :
    Option (Except Fault (List Record)) → Prop
  | records {l : Link} {start : List Event} {x : Exchange} {s : Status} :
      before.Start k start → after.slot = some l → l.transcript = start ++ x.events →
      x.command = text → x.Closed s → s.isOk = true →
      Learns k before after text (some (.ok x.records))
  | refusal {l : Link} {start : List Event} {x : Exchange} {s : Status} :
      before.Start k start → after.links.getLast? = some l → l.transcript = start ++ x.events →
      (x.command = text ∨ before.slot = none ∧ (x.command = k.login ∨ x.command = k.use)) →
      x.Closed s → s.isOk = false →
      Learns k before after text (some (.error (.refusal s.id s.message)))
  | fault {f : Fault} : f.losesLink = true → Learns k before after text (some (.error f))
  | unopened {f : Fault} : before.slot = none → before.dial.1 = .error f →
      Learns k before after text (some (.error f))
  | nothing : Learns k before after text none

/-- What one command of signing in comes to: the connection goes on to the next, or it is given up. -/
inductive Client.Shakes (k : Credentials) (dials : List Dial) (before c : Client)
    (opening : List String) (xs : List Exchange) (l' : Link) :
    Option (Except Fault (List Record)) → Prop
  | accepted {records : List Record} {x : Exchange} : c.Lends k dials l' →
      l'.Ready k opening (xs ++ [x]) → Shakes k dials before c opening xs l' (some (.ok records))
  | refused {f : Fault} : (c.giveUp l').Sound k dials →
      (∀ asked, before.Learns k (c.giveUp l') asked (some (.error f))) →
      Shakes k dials before c opening xs l' (some (.error f))
  | givenUp : (c.giveUp l').Sound k dials → Shakes k dials before c opening xs l' none

/-- What signing in comes to: a connection on which login and choice of server were accepted, or none
in the slot. Connections given up before stay as they are. -/
inductive Client.SignsIn (k : Credentials) (dials : List Dial) (before after : Client) :
    Option (Except Fault Link) → Prop
  | accepted {l : Link} {opening : List String} {x y : Exchange} : after.Lends k dials l →
      l.Ready k opening [x, y] → after.past = before.past →
      SignsIn k dials before after (some (.ok l))
  | refused {f : Fault} : after.Sound k dials → before.past <:+ after.past →
      (∀ asked, before.Learns k after asked (some (.error f))) →
      SignsIn k dials before after (some (.error f))
  | givenUp : after.Sound k dials → before.past <:+ after.past → SignsIn k dials before after none

end Defs

namespace Client

section SigningIn

variable {k : Credentials} {dials : List Dial} {c : Client} {l : Link}

theorem opened_succ_ok {n : Nat} {p : Peer} (h : dials[n]? = some (.ok p)) :
    opened dials (n + 1) = opened dials n ++ [p] := by
  unfold opened
  rw [List.take_add_one, List.filterMap_append, h]
  rfl

theorem opened_succ_error {n : Nat} (h : ∀ p, dials[n]? ≠ some (.ok p)) :
    opened dials (n + 1) = opened dials n := by
  unfold opened
  rw [List.take_add_one, List.filterMap_append]
  rcases hn : dials[n]? with _ | d
  · simp
  · cases d with
    | error f => simp [Except.toOption]
    | ok p => exact absurd hn (h p)

/-- Opening a stream hands out a connection that has said nothing, or leaves the client without a
connection. -/
theorem dial_sound (h : c.Sound k dials) (hs : c.slot = none) :
    (∃ l, c.dial.1 = .ok l ∧ c.dial.2.Lends k dials l ∧ l.transcript = [] ∧
        c.dial.2.past = c.past) ∨
      (∃ f, c.dial.1 = .error f ∧ c.dial.2.Sound k dials ∧ c.dial.2.slot = none ∧
        c.dial.2.past = c.past) := by
  have hdrop : dials.drop (c.dialled + 1) = c.dials.tail := by
    rw [h.dials_eq, List.tail_drop]
  have hnext : dials[c.dialled]? = c.dials.head? := by
    rw [h.dials_eq, List.head?_drop]
  have hlinks : c.links = c.past.reverse := by simp [links, hs]
  have hfollows := h.follows
  rw [hlinks] at hfollows
  unfold dial
  rcases hd : c.dials with _ | ⟨d, rest⟩
  · rw [hd] at hnext hdrop
    have hnone : ∀ p, dials[c.dialled]? ≠ some (.ok p) := by simp [hnext]
    refine Or.inr ⟨_, rfl, ⟨h.credentials_eq, hdrop.symm, ?_, h.past, h.slot⟩, hs, rfl⟩
    simpa [links, hs, opened_succ_error hnone] using hfollows
  · rw [hd] at hnext hdrop
    cases d with
    | error f =>
      have hnone : ∀ p, dials[c.dialled]? ≠ some (.ok p) := by simp [hnext]
      refine Or.inr ⟨f, rfl, ⟨h.credentials_eq, hdrop.symm, ?_, h.past, h.slot⟩, hs, rfl⟩
      simpa [links, hs, opened_succ_error hnone] using hfollows
    | ok p =>
      refine Or.inl ⟨.ofPeer p, rfl, ⟨h.credentials_eq, hdrop.symm, ?_, h.past, hs⟩, rfl, rfl⟩
      exact ⟨_, p, opened_succ_ok hnext, hfollows, Link.follows_ofPeer p⟩

/-- A connection in use may say more. -/
theorem Lends.continues (h : c.Lends k dials l) {l' : Link} {events : List Event}
    (hc : l.Continues l' events) : c.Lends k dials l' where
  credentials_eq := h.credentials_eq
  dials_eq := h.dials_eq
  follows := by
    obtain ⟨ps, p, ho, hps, hp⟩ := h.follows
    exact ⟨ps, p, ho, hps, hc.follows p hp⟩
  past := h.past
  slot := h.slot

theorem Lends.follows_append (h : c.Lends k dials l) :
    List.Forall₂ Link.Follows (opened dials c.dialled) (c.past.reverse ++ [l]) := by
  obtain ⟨ps, p, ho, hps, hp⟩ := h.follows
  rw [ho]
  exact List.rel_append hps (.cons hp .nil)

/-- Giving up a connection in use. -/
theorem Lends.giveUp (h : c.Lends k dials l) (hl : l.Speaks k) :
    (c.giveUp l).Sound k dials where
  credentials_eq := h.credentials_eq
  dials_eq := h.dials_eq
  follows := by
    simpa [links, Client.giveUp, h.slot] using h.follows_append
  past l' hl' := by
    rcases List.mem_cons.1 hl' with rfl | hl'
    · exact hl
    · exact h.past l' hl'
  slot l' hl' := by
    rw [Client.giveUp, h.slot] at hl'
    cases hl'

/-- Putting a connection back into the slot. -/
theorem Lends.keep (h : c.Lends k dials l) (hl : l.InSync k) :
    Sound k dials { c with slot := some l } where
  credentials_eq := h.credentials_eq
  dials_eq := h.dials_eq
  follows := by
    simpa [links] using h.follows_append
  past := h.past
  slot l' hl' := by
    cases hl'
    exact hl

/-- Taking the connection out of the slot. -/
theorem Sound.lend (h : c.Sound k dials) (hs : c.slot = some l) :
    Lends k dials { c with slot := none } l ∧ l.InSync k := by
  refine ⟨⟨h.credentials_eq, h.dials_eq, ?_, h.past, rfl⟩, h.slot l hs⟩
  have hall : List.Forall₂ Link.Follows (opened dials c.dialled) (c.past.reverse ++ [l]) := by
    simpa [links, hs] using h.follows
  have hfront := List.forall₂_take_append _ _ _ hall
  have hlast := List.forall₂_drop_append _ _ _ hall
  have hsplit := List.take_append_drop c.past.reverse.length (opened dials c.dialled)
  cases hlast' : (opened dials c.dialled).drop c.past.reverse.length with
  | nil =>
    rw [hlast'] at hlast
    cases hlast
  | cons p ps =>
    rw [hlast'] at hlast hsplit
    cases hlast with
    | cons hp hps =>
      cases hps
      exact ⟨_, p, hsplit.symm, hfront, hp⟩

theorem handshake_step {before : Client} {opening : List String} {xs : List Exchange}
    {text : String} (hb : before.slot = none) (h : c.Lends k dials l)
    (hr : l.Ready k opening xs) (hlen : xs.length ≤ 2) (ha : Allowed k xs.length text)
    (ht : text = k.login ∨ text = k.use) (timeLimit : Nat) (patience : Deadline) (now : Nat) :
    Shakes k dials before c opening xs (l.command timeLimit patience now text).link
      (l.command timeLimit patience now text).result := by
  have hq : text ≠ "quit" := by
    rcases ht with rfl | rfl
    · exact login_ne_quit k
    · exact use_ne_quit k
  obtain ⟨hans, hspeaks, events, hc⟩ := Link.command_answers hr ha hq timeLimit patience now
  generalize l.command timeLimit patience now text = turn at *
  have hsound := (h.continues hc).giveUp hspeaks
  have hlast : (c.giveUp turn.link).links.getLast? = some turn.link := by
    simp [links, Client.giveUp, h.slot]
  rcases hres : turn.result with _ | r
  all_goals rw [hres] at hans
  · exact .givenUp hsound
  · cases hans with
    | @accepted x s _ _ _ hready => exact .accepted (h.continues hc) hready
    | @refused x s hx hs hok htr _ =>
      have hstart : before.Start k (said opening xs) := by
        unfold Client.Start
        rw [hb]
        exact ⟨opening, xs, rfl, hr.dialogue, hr.settled, hlen⟩
      have htext : before.slot = none ∧ (x.command = k.login ∨ x.command = k.use) :=
        ⟨hb, by rw [hx]; exact ht⟩
      refine .refused hsound fun asked => ?_
      exact .refusal hstart hlast (by rw [htr, said_push]) (Or.inr htext) hs hok
    | lost hf => exact .refused hsound fun asked => .fault hf

/-- **Signing in** ends with a connection on which login and choice of server were accepted, or
leaves the client without a connection. -/
theorem signIn_sound (h : c.Sound k dials) (hs : c.slot = none) (patience : Deadline) (now : Nat) :
    c.SignsIn k dials (c.signIn patience now).2.2 (c.signIn patience now).1 := by
  unfold signIn
  rcases hdial : c.dial with ⟨opened?, c₁⟩
  have hstep := dial_sound h hs
  rw [hdial] at hstep
  rcases hstep with ⟨l, rfl, hl, htr, hpast⟩ | ⟨f, rfl, hsound, hslot, hpast⟩
  · have hkept : ∀ l', c.past <:+ (c₁.giveUp l').past := fun l' => by
      rw [Client.giveUp, ← hpast]
      exact List.suffix_cons _ _
    obtain ⟨opening, hgreet, hc⟩ := l.greet_continues patience now
    simp only
    generalize l.greet patience now = greeted at *
    have htr₁ : greeted.link.transcript = said opening [] := by
      rw [hc.transcript_eq, htr]
      simp [said]
    have hspeaks : greeted.link.Speaks k := ⟨opening, [], htr₁, .nil k hgreet.length_le⟩
    have hl₁ := hl.continues hc
    rcases hres : greeted.result with _ | f | ⟨⟩
    all_goals rw [hres] at hgreet
    all_goals simp only
    · exact .givenUp (hl₁.giveUp hspeaks) (hkept _)
    · cases hgreet with
      | broken _ hf => exact .refused (hl₁.giveUp hspeaks) (hkept _) fun asked => .fault hf
    · cases hgreet with
      | whole ho hb =>
      -- The greeting is read: login comes first, then the choice of server.
      have hr₁ : greeted.link.Ready k opening [] :=
        ⟨htr₁, .nil k (by simp [ho]), .nil, _, _, ho, hb⟩
      rw [hl.credentials_eq]
      have hlogin := handshake_step hs hl₁ hr₁ (Nat.zero_le 2) rfl (Or.inl rfl)
        Link.defaultTimeLimit patience greeted.now
      generalize greeted.link.command Link.defaultTimeLimit patience greeted.now k.login = known
        at *
      obtain ⟨result, now₂, l₂⟩ := known
      cases hlogin with
      | givenUp hsound => exact .givenUp hsound (hkept _)
      | refused hsound hlearns => exact .refused hsound (hkept _) hlearns
      | accepted hl₂ hr₂ =>
        have huse := handshake_step hs hl₂ hr₂ (Nat.le_succ 1) rfl (Or.inr rfl)
          Link.defaultTimeLimit patience now₂
        simp only
        generalize l₂.command Link.defaultTimeLimit patience now₂ k.use = ready at *
        obtain ⟨result, now₃, l₃⟩ := ready
        cases huse with
        | givenUp hsound => exact .givenUp hsound (hkept _)
        | refused hsound hlearns => exact .refused hsound (hkept _) hlearns
        | accepted hl₃ hr₃ => exact .accepted hl₃ hr₃ hpast
  · refine .refused hsound (hpast ▸ List.suffix_refl _) fun asked => ?_
    exact .unopened hs (by rw [hdial])

end SigningIn

section Serving

variable {k : Credentials} {dials : List Dial} {c : Client} {l : Link}

/-- **Running a command** keeps the connection after a whole reply and gives it up after anything
else. What is returned is what the exchange of this command gives. -/
theorem runOn_sound {before : Client} {opening : List String} {xs : List Exchange} {text : String}
    (h : c.Lends k dials l) (hr : l.Ready k opening xs) (hlen : 2 ≤ xs.length)
    (hstart : before.Start k l.transcript) (ha : Asked text) (hq : text ≠ "quit")
    (patience : Deadline) (now : Nat) :
    (c.runOn l patience now text).client.Sound k dials ∧
      c.past <:+ (c.runOn l patience now text).client.past ∧
      before.Learns k (c.runOn l patience now text).client text
        (c.runOn l patience now text).result := by
  unfold runOn
  obtain ⟨hans, hspeaks, events, hc⟩ := Link.command_answers hr (allowed_of_asked hlen ha) hq
    Link.defaultTimeLimit patience now
  simp only
  generalize l.command Link.defaultTimeLimit patience now text = turn at *
  have hl := h.continues hc
  have hgiven : c.past <:+ (c.giveUp turn.link).past := List.suffix_cons _ _
  have hsync : ∀ x, turn.link.Ready k opening (xs ++ [x]) → turn.link.InSync k := fun x hx =>
    ⟨opening, xs ++ [x], hx, by simp; omega⟩
  rcases hres : turn.result with _ | f | records
  all_goals rw [hres] at hans
  all_goals simp only
  · exact ⟨hl.giveUp hspeaks, hgiven, .nothing⟩
  · cases hans with
    | @refused x s hx hs hok htr hready =>
      have htr' : turn.link.transcript = l.transcript ++ x.events := by
        rw [htr, said_push, hr.transcript_eq]
      rw [show (Fault.refusal s.id s.message).losesLink = false from rfl]
      simp only [Bool.false_eq_true, if_false]
      exact ⟨hl.keep (hsync x (hready hlen)), List.suffix_refl _,
        .refusal hstart (by simp [links]) htr' (Or.inl hx) hs hok⟩
    | lost hf =>
      rw [if_pos hf]
      exact ⟨hl.giveUp hspeaks, hgiven, .fault hf⟩
  · cases hans with
    | @accepted x s hx hs hok hready =>
      have htr' : turn.link.transcript = l.transcript ++ x.events := by
        rw [hready.transcript_eq, said_push, hr.transcript_eq]
      exact ⟨hl.keep (hsync x hready), List.suffix_refl _, .records hstart rfl htr' hx hs hok⟩

/-- A command, with signing in before it if there is no connection. -/
theorem perform_sound (h : c.Sound k dials) {text : String} (ha : Asked text) (hq : text ≠ "quit")
    (patience : Deadline) (now : Nat) :
    (c.perform patience now text).client.Sound k dials ∧
      c.past <:+ (c.perform patience now text).client.past ∧
      c.Learns k (c.perform patience now text).client text (c.perform patience now text).result := by
  unfold perform
  rcases hslot : c.slot with _ | l
  all_goals simp only
  · rcases hsign : c.signIn patience now with ⟨r, now', c'⟩
    have hstep := signIn_sound h hslot patience now
    rw [hsign] at hstep
    cases hstep with
    | @accepted l opening x y hl hr hpast =>
      have hstart : c.Start k l.transcript := by
        unfold Client.Start
        rw [hslot]
        exact ⟨opening, [x, y], hr.transcript_eq, hr.dialogue, hr.settled, Nat.le_refl 2⟩
      simp only at hpast ⊢
      rw [← hpast]
      exact runOn_sound hl hr (Nat.le_refl 2) hstart ha hq patience now'
    | refused hsound hpast hlearns => exact ⟨hsound, hpast, hlearns text⟩
    | givenUp hsound hpast => exact ⟨hsound, hpast, .nothing⟩
  · obtain ⟨hl, opening, xs, hr, hlen⟩ := h.lend hslot
    have hstart : c.Start k l.transcript := by
      unfold Client.Start
      rw [hslot]
    exact runOn_sound hl hr hlen hstart ha hq patience now

/-- Saying goodbye gives the connection up, whether the farewell could be written or not. -/
theorem leave_sound (h : c.Sound k dials) (now : Nat) :
    (c.leave now).client.Sound k dials ∧ c.past <:+ (c.leave now).client.past ∧
      (c.leave now).client.slot = none := by
  unfold leave
  rcases hslot : c.slot with _ | l
  all_goals simp only
  · exact ⟨h, List.suffix_refl _, hslot⟩
  · obtain ⟨hl, opening, xs, hr, hlen⟩ := h.lend hslot
    refine ⟨?_, List.suffix_cons _ _, rfl⟩
    have hsend := l.send_continues now "quit"
    unfold Link.writeLine
    rcases hs : l.send now "quit" with ⟨t?, l'⟩
    rw [hs] at hsend
    rcases hsend with ⟨t, rfl, hc⟩ | ⟨rfl, hb, hc⟩
    · refine (hl.continues hc).giveUp ⟨opening, xs, ?_, hr.dialogue⟩
      rw [hc.transcript_eq, hr.transcript_eq, List.append_nil]
    · -- The farewell is an exchange that nobody waits to see answered.
      refine (hl.continues hc).giveUp ⟨opening, xs ++ [⟨"quit", []⟩], ?_,
        hr.dialogue.push hr.settled hr.welcomed (allowed_of_asked hlen .farewell) hb⟩
      rw [hc.transcript_eq, hr.transcript_eq, said_push]
      rfl

theorem serve_quit (c : Client) (patience : Deadline) (now : Nat) :
    c.serve patience now .quit = c.leave now := rfl

theorem serve_of_command_none {r : Request} (h : r.command = none) (patience : Deadline)
    (now : Nat) : c.serve patience now r = ⟨some (.ok .done), now, c⟩ := by
  cases r with
  | say text => simp only [serve, h]
  | occupants | channels | ping | quit => cases h

theorem serve_of_command {r : Request} {text : String} (h : r.command = some text)
    (hr : r ≠ .quit) (patience : Deadline) (now : Nat) :
    c.serve patience now r =
      ⟨(c.perform patience now text).result.map (·.bind r.answer),
        (c.perform patience now text).now, (c.perform patience now text).client⟩ := by
  cases r with
  | quit => exact absurd rfl hr
  | say chat => simp only [serve, h]
  | occupants | channels | ping => cases h; rfl

/-- **Every served request keeps the invariant**, whatever becomes of it, and the connections that
were given up stay as they are. -/
theorem serve_sound (h : c.Sound k dials) (patience : Deadline) (now : Nat) (r : Request) :
    (c.serve patience now r).client.Sound k dials ∧
      c.past <:+ (c.serve patience now r).client.past := by
  by_cases hr : r = .quit
  · subst hr
    rw [serve_quit]
    obtain ⟨hsound, hpast, _⟩ := leave_sound h now
    exact ⟨hsound, hpast⟩
  · rcases hc : r.command with _ | text
    · rw [serve_of_command_none hc]
      exact ⟨h, List.suffix_refl _⟩
    · rw [serve_of_command hc hr]
      obtain ⟨hsound, hpast, _⟩ :=
        perform_sound h (command_asked hc) (command_ne_quit hc hr) patience now
      exact ⟨hsound, hpast⟩

/-- **What a request returns** is read off the records that its own command learnt. -/
theorem serve_learns (h : c.Sound k dials) (patience : Deadline) (now : Nat) {r : Request}
    {text : String} (hc : r.command = some text) (hr : r ≠ .quit) :
    ∃ learnt, (c.serve patience now r).result = learnt.map (·.bind r.answer) ∧
      c.Learns k (c.serve patience now r).client text learnt := by
  rw [serve_of_command hc hr]
  obtain ⟨_, _, hlearns⟩ := perform_sound h (command_asked hc) (command_ne_quit hc hr) patience now
  exact ⟨_, rfl, hlearns⟩

/-- A client that has no connection yet. -/
theorem fresh_sound (k : Credentials) (dials : List Dial) (exhausted : Fault) :
    (fresh k dials exhausted).Sound k dials where
  credentials_eq := rfl
  dials_eq := rfl
  follows := .nil
  past l h := by cases h
  slot l h := by cases h

theorem connect_sound (h : c.Sound k dials) (hs : c.slot = none) (patience : Deadline)
    (now : Nat) : (c.connect patience now).client.Sound k dials := by
  unfold connect
  rcases hsign : c.signIn patience now with ⟨r, now', c'⟩
  have hstep := signIn_sound h hs patience now
  rw [hsign] at hstep
  cases hstep with
  | accepted hl hr _ => exact hl.keep ⟨_, _, hr, Nat.le_refl 2⟩
  | refused hsound _ _ => exact hsound
  | givenUp hsound _ => exact hsound

end Serving

end Client

end VoiceRelay
