import VoiceRelay.Server.Parts
import VoiceRelay.Server.Startup
import VoiceRelay.Proofs.DialPace

/-!
# What accepted settings can start

The settings are checked before anything is started, and a part that is switched on then works with the
values that it was given. A part that calls the voice server can do nothing without its address, and a loop
whose turns take no time takes all there is. The check sees to both for every part but the event stream:
the address is looked at only if the command connection needs it too, and the pause between two attempts to
open the stream is not looked at.

**Design.** `Alike` relates settings that differ only where no enabled part looks, section by section
(`SameOrOff`), and whatever depends on the settings is shown to be the same for both. `CanWork` says what
the parts need, and it is compared with what the check finds.

**Results.**

- `Alike.check_eq`, `Alike.parts_eq`, `stages_eq_of_alike`: nothing looks at what belongs to a part that
  is switched off.
- `check_eq_ok_iff`: what the check sees to.
- `accepted_parts_work`: what accepted settings start, and when all of it can work.
-/

namespace VoiceRelay

section Defs

/-- Whoever calls the voice server has an address for it, and every wait takes time. -/
structure Parts.CanWork (p : Parts) : Prop where
  addressed : ∀ k ∈ p.called, Settings.isBlankText k.address = false
  paced : ∀ w n, p.lasts w = some n → 0 < n

namespace Settings

/-- Two sections are the same unless they are switched off. -/
def SameOrOff {α : Type} (on : α → Bool) (x y : α) : Prop := x = y ∨ on x = false ∧ on y = false

/-- Two settings differ at most in sections that no enabled part uses. -/
structure Alike (s t : Settings) : Prop where
  web : s.web = t.web
  log : s.log = t.log
  forward : s.forward = t.forward
  roster : SameOrOff RosterSettings.enabled s.roster t.roster
  messages : SameOrOff MessageSettings.enabled s.messages t.messages
  times : SameOrOff TimesSettings.enabled s.times t.times
  motto : SameOrOff MottoSettings.enabled s.motto t.motto
  observe : SameOrOff ObserveSettings.enabled s.observe t.observe
  access : s.access = t.access ∨ s.needsCommands = false ∧ s.messages.enabled = false

/-- The defaults with another address, and of the parts that call the voice server only the event stream. -/
def streamOnly (address : String) : Settings :=
  { standard with
    access := { standard.access with address }
    roster := { standard.roster with enabled := false }
    forward := { standard.forward with enabled := false } }

/-- The defaults, without a pause between two attempts to open the event stream. -/
def unpaused : Settings := { standard with messages := { standard.messages with pause := 0 } }

end Settings

end Defs

namespace Settings

section Unused

variable {s t : Settings} {α β : Type} {on : α → Bool} {x y : α}

theorem SameOrOff.switch (h : SameOrOff on x y) : on x = on y := by
  rcases h with rfl | ⟨hx, hy⟩
  · rfl
  · rw [hx, hy]

/-- What is only looked at when a section is switched on is the same. -/
theorem SameOrOff.guarded (h : SameOrOff on x y) {a b : β} (hab : x = y → a = b) (off : β) :
    (if on x then a else off) = if on y then b else off := by
  rcases h with rfl | ⟨hx, hy⟩
  · rw [hab rfl]
  · rw [hx, hy]
    rfl

theorem SameOrOff.and_eq (h : SameOrOff on x y) (f : α → Bool) : (on x && f x) = (on y && f y) := by
  simpa using h.guarded (congrArg f) false

theorem Alike.needsCommands_eq (h : s.Alike t) : s.needsCommands = t.needsCommands := by
  rw [needsCommands, needsCommands, h.roster.switch, h.forward]

theorem Alike.access_eq (h : s.Alike t) (hon : s.needsCommands = true ∨ s.messages.enabled = true) :
    s.access = t.access := by
  refine h.access.resolve_right fun hoff => ?_
  rw [hoff.1, hoff.2] at hon
  rcases hon with hon | hon <;> cases hon

/-- What is only looked at for the command connection is the same if it depends on the account alone. -/
theorem Alike.guarded (h : s.Alike t) {a b : β} (hab : s.access = t.access → a = b) (off : β) :
    (if s.needsCommands then a else off) = if t.needsCommands then b else off := by
  rw [← h.needsCommands_eq]
  split
  · next hon => exact hab (h.access_eq (Or.inl hon))
  · rfl

/-- **The verdict does not depend on what no enabled part uses.** -/
theorem Alike.check_eq (h : s.Alike t) : s.check = t.check := by
  have hroster := h.roster.and_eq fun x => x.interval == 0
  have hmessages := h.messages.and_eq fun x => x.beat == 0
  have htimes := h.times.and_eq fun x => isBlankText x.program
  have hcommands : (s.needsCommands && isBlankText s.access.address) =
      (t.needsCommands && isBlankText t.access.address) := by
    simpa using h.guarded (congrArg fun x => isBlankText x.address) false
  have hfaults : s.faults = t.faults := by
    simp only [faults, h.log, h.web, hroster, hmessages, htimes, hcommands]
  rw [check, check, hfaults]

theorem credentials_eq (h : s.access = t.access) : s.credentials = t.credentials := by
  rw [credentials, h, credentials]

/-- **Nor do the parts that keep running.** -/
theorem Alike.parts_eq (h : s.Alike t) : s.parts = t.parts := by
  have hcommands : (if s.needsCommands then some s.credentials else none) =
      if t.needsCommands then some t.credentials else none :=
    h.guarded (fun ha => congrArg some (credentials_eq ha)) none
  have hbeat : (if s.needsCommands then s.commandBeat else none) =
      if t.needsCommands then t.commandBeat else none :=
    h.guarded (fun ha => by rw [commandBeat, ha, commandBeat]) none
  have hbind (s : Settings) : ((if s.needsCommands then some s.credentials else none).bind
      fun _ => s.commandBeat) = if s.needsCommands then s.commandBeat else none := by
    split <;> rfl
  simp only [parts, Parts.mk.injEq]
  refine ⟨by rw [h.web], hcommands, by rw [hbind, hbind, hbeat], ?_, ?_⟩
  · rw [hcommands]
    exact h.roster.guarded (fun hr => by rw [hr]) none
  · rcases h.messages with hm | ⟨hs, ht⟩
    · rw [← hm]
      split
      · next hon => rw [stream, credentials_eq (h.access_eq (Or.inr hon)), hm, stream]
      · rfl
    · rw [hs, ht]
      rfl

end Unused

end Settings

namespace Startup

section Unused

variable {s t : Settings}

theorem optional_eq_ite {α : Type} (on : Bool) (a : Stage α) :
    optional on a = if on then optional true a else fun p => (.ok none, p) := by
  cases on <;> rfl

/-- **Nor does the start**, with all that it opens and logs. -/
theorem stages_eq_of_alike (h : s.Alike t) (host : Host) : stages host s = stages host t := by
  have hchecked : checked s = checked t := by rw [checked, h.check_eq, checked]
  have hmottos : optional s.motto.enabled (mottos host s) = optional t.motto.enabled (mottos host t) := by
    rw [optional_eq_ite, optional_eq_ite t.motto.enabled]
    exact h.motto.guarded (fun hm => by unfold mottos; rw [hm]) _
  have hcommands : optional s.needsCommands (commands host s) =
      optional t.needsCommands (commands host t) := by
    rw [optional_eq_ite, optional_eq_ite t.needsCommands]
    exact h.guarded (fun ha => by unfold commands; rw [Settings.credentials_eq ha]) _
  have hjournal :
      optional s.messages.enabled (journal host s.messages.journal (.chatLog s.messages.journal)) =
        optional t.messages.enabled (journal host t.messages.journal (.chatLog t.messages.journal)) := by
    rw [optional_eq_ite, optional_eq_ite t.messages.enabled]
    exact h.messages.guarded (fun hm => by rw [hm]) _
  have hobserve : optional s.observe.enabled (observe s) = optional t.observe.enabled (observe t) := by
    rw [optional_eq_ite, optional_eq_ite t.observe.enabled]
    exact h.observe.guarded (fun ho => by unfold observe Settings.observeAddress; rw [ho]) _
  have hlisten : listen host s = listen host t := by
    unfold listen Settings.webAddress
    rw [h.web]
  unfold stages
  rw [hchecked, hmottos, hcommands, hjournal, hobserve, hlisten, h.web]

end Unused

end Startup

namespace Settings

section Accepted

variable {s : Settings}

/-- **What the check sees to.** -/
theorem check_eq_ok_iff : s.check = .ok () ↔
    LogLevel.isKnown s.log.level = true ∧ (LogFormat.ofName? s.log.format).isSome = true ∧
    (s.roster.enabled = true → 0 < s.roster.interval) ∧
    (s.messages.enabled = true → 0 < s.messages.beat) ∧ 0 < s.web.sendLimit ∧
    (s.times.enabled = true → isBlankText s.times.program = false) ∧
    (s.needsCommands = true → isBlankText s.access.address = false) := by
  have hfind : s.check = .ok () ↔ s.faults.find? (fun e => e.1) = none := by
    unfold check
    cases s.faults.find? (fun e => e.1) <;> simp
  rw [hfind, List.find?_eq_none]
  simp [faults, Nat.pos_iff_ne_zero]

theorem commands_eq_some {k : Credentials} :
    s.parts.commands = some k ↔ s.needsCommands = true ∧ s.credentials = k := by
  simp [parts]

theorem events_eq_some {e : StreamSettings} :
    s.parts.events = some e ↔ s.messages.enabled = true ∧ s.stream = e := by
  simp [parts]

theorem beat_eq_some {n : Nat} (h : s.parts.beat = some n) : s.commandBeat = some n := by
  obtain ⟨k, -, hbeat⟩ := Option.bind_eq_some_iff.1 h
  exact hbeat

theorem roster_eq_some {r : RosterPart} (h : s.parts.roster = some r) :
    s.roster.enabled = true ∧ r = ⟨s.roster.interval * 1000, s.roster.hidden⟩ := by
  simp only [parts] at h
  split at h
  · next hon =>
    obtain ⟨k, -, hr⟩ := Option.map_eq_some_iff.1 h
    exact ⟨hon, hr.symm⟩
  · cases h

theorem mem_called {k : Credentials} : k ∈ s.parts.called ↔
    s.parts.commands = some k ∨ ∃ e, s.parts.events = some e ∧ e.credentials = k := by
  simp [Parts.called]

/-- The command connection has an address. -/
theorem addressed_of_check (h : s.check = .ok ()) {k : Credentials} (hk : s.parts.commands = some k) :
    isBlankText k.address = false := by
  obtain ⟨hneeds, rfl⟩ := commands_eq_some.1 hk
  exact (check_eq_ok_iff.1 h).2.2.2.2.2.2 hneeds

/-- Every wait takes time, but for the pause between two attempts. -/
theorem paced_of_check (h : s.check = .ok ()) {w : Wait} {n : Nat} (hw : s.parts.lasts w = some n)
    (hpause : w ≠ .reconnect) : 0 < n := by
  obtain ⟨-, -, hinterval, hbeat, hlimit, -, -⟩ := check_eq_ok_iff.1 h
  cases w with
  | send =>
    cases hw
    exact hlimit
  | beat =>
    have hb : s.commandBeat = some n := beat_eq_some hw
    unfold commandBeat at hb
    split at hb
    · cases hb
      omega
    · cases hb
  | poll =>
    obtain ⟨r, hr, rfl⟩ := Option.map_eq_some_iff.1 hw
    obtain ⟨hon, rfl⟩ := roster_eq_some hr
    exact Nat.mul_pos (hinterval hon) (by decide)
  | keepalive =>
    obtain ⟨e, he, rfl⟩ := Option.map_eq_some_iff.1 hw
    obtain ⟨hon, rfl⟩ := events_eq_some.1 he
    exact hbeat hon
  | reconnect => exact absurd rfl hpause

/-- All of it can work exactly when the event stream can. -/
theorem canWork_iff (h : s.check = .ok ()) : s.parts.CanWork ↔
    ∀ e, s.parts.events = some e → isBlankText e.credentials.address = false ∧ 0 < e.pause := by
  constructor
  · intro hwork e he
    refine ⟨hwork.addressed _ (mem_called.2 (Or.inr ⟨e, he, rfl⟩)), hwork.paced .reconnect _ ?_⟩
    exact congrArg (Option.map StreamSettings.pause) he
  · refine fun hevents => ⟨fun k hk => ?_, fun w n hw => ?_⟩
    · rcases mem_called.1 hk with hk | ⟨e, he, rfl⟩
      · exact addressed_of_check h hk
      · exact (hevents e he).1
    · by_cases hpause : w = .reconnect
      · subst hpause
        obtain ⟨e, he, rfl⟩ := Option.map_eq_some_iff.1 hw
        exact (hevents e he).2
      · exact paced_of_check h hw hpause

/-- **What accepted settings start.** Settings that differ only where no enabled part looks get the same
verdict, keep the same parts running, and start in the same way. Settings that are accepted give the
command connection an address and let every wait take time, except that nothing is said about the pause
between two attempts to open the event stream, nor about the address of the stream when it is the only
part that calls; so all that is started can work exactly when the event stream, if it is on, has an
address and a pause. With a pause the stream is dialled once for each pause that has passed, and once more;
without one it is dialled any number of times in the moment in which it is started, if the voice server
refuses at once. -/
theorem accepted_parts_work (s : Settings) :
    (∀ t, s.Alike t → s.check = t.check ∧ s.parts = t.parts ∧
      ∀ host, Startup.start host s = Startup.start host t) ∧
    (s.check = .ok () →
      (∀ k, s.parts.commands = some k → isBlankText k.address = false) ∧
      (∀ w n, s.parts.lasts w = some n → w ≠ .reconnect → 0 < n) ∧
      (∀ e, s.parts.events = some e → isBlankText e.credentials.address = true →
        s.parts.commands = none) ∧
      (s.parts.CanWork ↔ ∀ e, s.parts.events = some e →
        isBlankText e.credentials.address = false ∧ 0 < e.pause)) ∧
    ∀ e, s.parts.events = some e →
      (∀ stopAt closed attempts,
        let r := EventStream.run e stopAt closed attempts
        r.dials * e.pause ≤ r.now + e.pause) ∧
      (e.pause = 0 → ∀ closed (f : Fault) n, f.isFatal = false →
        let r := EventStream.run e 1 closed (List.replicate n ⟨0, .error f⟩)
        r.dials = n ∧ r.now = 0 ∧ r.verdict = .running) := by
  refine ⟨fun t h => ⟨h.check_eq, h.parts_eq, fun host => ?_⟩,
    fun h => ⟨fun k => addressed_of_check h, fun w n => paced_of_check h, fun e he hblank => ?_,
      canWork_iff h⟩,
    fun e _ => ⟨EventStream.run_dials_le e, fun hpause closed f n hf => ?_⟩⟩
  · unfold Startup.start
    rw [Startup.stages_eq_of_alike h host]
  · obtain ⟨-, rfl⟩ := events_eq_some.1 he
    refine Option.eq_none_iff_forall_ne_some.2 fun k hk => ?_
    obtain ⟨-, rfl⟩ := commands_eq_some.1 hk
    exact absurd (addressed_of_check h hk) (by rw [stream] at hblank; simp [hblank])
  · have hrun := @EventStream.run_refused e 1 closed f hf n (by rw [hpause]; omega)
    rwa [hpause, Nat.mul_zero] at hrun

/-- Settings that do not list times: the blank that stands there for the program does not count, they are
accepted, and what calls has an address and what waits takes time. The event stream does not wait between two
attempts, so twenty of them are over in the moment in which it is started. -/
theorem accepted_parts_work_twenty :
    let t := { unpaused with times := { unpaused.times with program := " " } }
    let r := EventStream.run unpaused.stream 1 false (List.replicate 20 ⟨0, .error .closed⟩)
    (unpaused.check = .ok () ∧ t.check = .ok () ∧ unpaused.parts = t.parts) ∧
    isBlankText unpaused.credentials.address = false ∧
    (unpaused.parts.lasts .poll = some 5000 ∧ 0 < 5000) ∧
    ((streamOnly " ").check = .ok () ∧ (streamOnly " ").parts.commands = none) ∧
    r.dials = 20 ∧ r.now = 0 ∧ r.verdict = .running := by
  intro t r
  have hcheck : unpaused.check = .ok () := rfl
  have halike : unpaused.Alike t :=
    ⟨rfl, rfl, rfl, .inl rfl, .inl rfl, .inr ⟨rfl, rfl⟩, .inl rfl, .inl rfl, .inl rfl⟩
  obtain ⟨hsame, haccepted, hpaced⟩ := accepted_parts_work unpaused
  obtain ⟨hverdict, hparts, -⟩ := hsame t halike
  obtain ⟨haddressed, hwaits, -, -⟩ := haccepted hcheck
  have hstream : (streamOnly " ").check = .ok () := rfl
  obtain ⟨-, -, halone, -⟩ := (accepted_parts_work (streamOnly " ")).2.1 hstream
  exact ⟨⟨hcheck, hverdict ▸ hcheck, hparts⟩, haddressed _ rfl, ⟨rfl, hwaits .poll 5000 rfl nofun⟩,
    ⟨hstream, halone _ rfl (by decide)⟩, (hpaced unpaused.stream rfl).2 rfl false .closed 20 rfl⟩

/-- Accepted settings with which the event stream, the only part that calls the voice server, has an
address that is a blank; and accepted settings with which it does not wait between two attempts. -/
theorem stream_unchecked :
    ((streamOnly " ").check = .ok () ∧
      (streamOnly " ").parts.called = [⟨"serveradmin", "", " ", 10011, 1⟩] ∧
      ¬ (streamOnly " ").parts.CanWork) ∧
    let s := { standard with messages := { standard.messages with pause := 0 } }
    s.check = .ok () ∧ s.parts.lasts .reconnect = some 0 ∧ ¬ s.parts.CanWork := by
  refine ⟨⟨rfl, rfl, fun hwork => ?_⟩, rfl, rfl, fun hwork => ?_⟩
  · have hblank := hwork.addressed ⟨"serveradmin", "", " ", 10011, 1⟩ (by decide)
    exact absurd hblank (by decide)
  · exact absurd (hwork.paced .reconnect 0 rfl) (Nat.lt_irrefl 0)

end Accepted

end Settings
end VoiceRelay
