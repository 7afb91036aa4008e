import VoiceRelay.Query.EventStream
import VoiceRelay.Proofs.Callers
import VoiceRelay.Proofs.Serving

/-!
# The account makes no difference

User name and password go into the line that logs in and nowhere else. So two runs against the same
streams that differ in the account alone come to the same results at the same times, with the same
texts in their faults. What they write is the same, too, but for the two fields of that line: whatever
the texts are, they end neither a field nor the line.

**Design.** `Entry.Twin` relates the entries of two logs, `Link.Twin` and `Client.Twin` what holds them.
The two connections of a twin pair have the same octets before them, so whatever is read or decided on
one is on the other. A login line is where the two may part.

**Results.**

- `Link.Twin.command`, `Client.Twin.serve`: an exchange and a served request keep twins.
- `play_twin`, `sessionWith_twin`: so do every run of callers and every session of the event stream.
- `login_fields`: a login line has three fields, and gives name and password back.
- `account_irrelevant`: all this in one.
-/

namespace VoiceRelay

section Defs

/-- The same with another account. -/
def Credentials.withAccount (k : Credentials) (user password : String) : Credentials :=
  { k with user := user, password := password }

variable (k k' : Credentials)

/-- Two entries that are the same, or the login lines of two accounts. -/
inductive Entry.Twin : Entry → Entry → Prop
  | heard (time : Nat) (line : String) : Twin (.heard time line) (.heard time line)
  | published (st : StreamState) : Twin (.published st) (.published st)
  | sent (time : Nat) {text : String} : Line.breaks text = false →
      Twin (.sent time (Line.written text)) (.sent time (Line.written text))
  | login (time : Nat) :
      Twin (.sent time (Line.written k.login)) (.sent time (Line.written k'.login))

/-- Two connections that differ at most in the login lines of their logs. -/
inductive Link.Twin : Link → Link → Prop
  | mk {reader : Reader} {script : List Step} {accepted : Option Nat} {writes : Nat} {shut : Bool}
      {log log' : List Entry} : List.Forall₂ (Entry.Twin k k') log log' →
      Twin ⟨reader, script, accepted, writes, shut, log⟩
        ⟨reader, script, accepted, writes, shut, log'⟩

/-- Two exchanges that came to the same. -/
inductive Link.Turn.Twin {α : Type} : Link.Turn α → Link.Turn α → Prop
  | mk {result : Option (Except Fault α)} {now : Nat} {l l' : Link} : l.Twin k k' l' →
      Twin ⟨result, now, l⟩ ⟨result, now, l'⟩

/-- Two clients that differ at most in their accounts and in what these were used for. -/
inductive Client.Twin : Client → Client → Prop
  | mk {dials : List Dial} {exhausted : Fault} {slot slot' : Option Link} {past past' : List Link}
      {dialled : Nat} : Option.Rel (Link.Twin k k') slot slot' →
      List.Forall₂ (Link.Twin k k') past past' →
      Twin ⟨k, dials, exhausted, slot, past, dialled⟩ ⟨k', dials, exhausted, slot', past', dialled⟩

/-- Two ways of signing in that came to the same. -/
inductive Client.SignsInAlike :
    Option (Except Fault Link) × Nat × Client → Option (Except Fault Link) × Nat × Client → Prop
  | accepted {now : Nat} {l l' : Link} {c c' : Client} : l.Twin k k' l' → c.Twin k k' c' →
      SignsInAlike (some (.ok l), now, c) (some (.ok l'), now, c')
  | refused {f : Fault} {now : Nat} {c c' : Client} : c.Twin k k' c' →
      SignsInAlike (some (.error f), now, c) (some (.error f), now, c')
  | givenUp {now : Nat} {c c' : Client} : c.Twin k k' c' →
      SignsInAlike (none, now, c) (none, now, c')

/-- Two calls that came to the same. -/
inductive Call.Twin {α : Type} : Call α → Call α → Prop
  | mk {result : Option (Except Fault α)} {now : Nat} {c c' : Client} : c.Twin k k' c' →
      Twin ⟨result, now, c⟩ ⟨result, now, c'⟩

/-- Two schedules with the same callers. -/
inductive Schedule.Twin : Schedule → Schedule → Prop
  | mk {now : Nat} {tasks : List Task} {queue : List Nat} {c c' : Client} : c.Twin k k' c' →
      Twin ⟨now, c, tasks, queue⟩ ⟨now, c', tasks, queue⟩

/-- Two sessions that came to the same. -/
inductive SessionOf.Twin {σ : Type} : SessionOf σ → SessionOf σ → Prop
  | mk {result : Option (Except Fault Unit)} {now : Nat} {l l' : Link} {x : σ} : l.Twin k k' l' →
      Twin ⟨result, now, l, x⟩ ⟨result, now, l', x⟩

end Defs

section Accounts

variable (k : Credentials)

theorem space_not_mem_encode (value : String) : ' ' ∉ (Escape.encode value).toList := by
  intro hspace
  rw [Escape.encode, String.toList_ofList] at hspace
  exact (mem_encodeChars hspace).1 rfl

theorem login_chars :
    k.login.toList = "login".toList ++ ' ' :: ((Escape.encode k.user).toList ++
      ' ' :: (Escape.encode k.password).toList) := by
  simp [Credentials.login]

/-- **A login line has three fields**, whatever name and password are. -/
theorem login_fields : k.login.toList.splitOn ' ' =
    ["login".toList, (Escape.encode k.user).toList, (Escape.encode k.password).toList] := by
  rw [login_chars, List.splitOn_append_cons_self_of_not_mem (by simp),
    List.splitOn_append_cons_self_of_not_mem (space_not_mem_encode k.user),
    List.splitOn_eq_singleton (space_not_mem_encode k.password)]

/-- The first word of a login line does not tell whose it is. -/
theorem commandName_login : Link.commandName k.login = "login" := by
  rw [Link.commandName, login_chars, List.takeWhile_append_of_pos (by simp)]
  simp

end Accounts

section Exchanges

variable {k k' : Credentials} {l l' : Link}

namespace Link.Twin

theorem note (h : l.Twin k k' l') {e e' : Entry} (he : e.Twin k k' e') :
    (l.note e).Twin k k' (l'.note e') := by
  cases h with
  | mk hlog => exact .mk (.cons he hlog)

theorem shut_eq (h : l.Twin k k' l') : l'.inboxShut = l.inboxShut := by
  cases h
  rfl

/-- What is read on one of two twins is read on the other. -/
theorem hear (h : l.Twin k k' l') {deadline : Deadline} {now time : Nat} {heard : Heard} {m : Link}
    (hh : l.hear deadline now = (heard, time, m)) :
    ∃ m', l'.hear deadline now = (heard, time, m') ∧ m.Twin k k' m' := by
  cases h with
  | @mk reader script accepted writes shut log log' hlog =>
    unfold Link.hear at hh ⊢
    simp only [Link.lines] at hh ⊢
    generalize reader.pop = popped? at hh ⊢
    rcases popped? with _ | ⟨popped, r⟩
    · simp only at hh ⊢
      generalize listen _ deadline reader shut now script = out at hh ⊢
      obtain ⟨read, time', r, rest, shut'⟩ := out
      cases read with
      | line text =>
        cases hh
        exact ⟨_, rfl, .mk (.cons (.heard time' text) hlog)⟩
      | ended | failed _ | nothing =>
        cases hh
        exact ⟨_, rfl, .mk hlog⟩
    · cases popped with
      | line text =>
        cases hh
        exact ⟨_, rfl, .mk (.cons (.heard now text) hlog)⟩
      | ended | failed _ | nothing =>
        cases hh
        exact ⟨_, rfl, .mk hlog⟩

theorem refuses_eq (h : l.Twin k k' l') : l'.refuses = l.refuses := by
  cases h
  rfl

theorem count (h : l.Twin k k' l') :
    { l with writes := l.writes + 1 }.Twin k k' { l' with writes := l'.writes + 1 } := by
  cases h with
  | mk hlog => exact .mk hlog

/-- A write that is accepted on one of two twins is accepted on the other; what is written may be two
login lines. -/
theorem send_pair (h : l.Twin k k' l') (now : Nat) {text text' : String}
    (hbreaks : Line.breaks text' = Line.breaks text)
    (hentry : Line.breaks text = false → Entry.Twin k k' (.sent now (Line.written text))
      (.sent now (Line.written text'))) :
    ∃ t m m', l.send now text = (t, m) ∧ l'.send now text' = (t, m') ∧ m.Twin k k' m' := by
  unfold Link.send Line.frame
  rw [hbreaks, h.refuses_eq]
  cases hb : Line.breaks text with
  | true => exact ⟨_, _, _, rfl, rfl, h⟩
  | false =>
    cases hr : l.refuses with
    | true => exact ⟨_, _, _, rfl, rfl, h.count⟩
    | false => exact ⟨_, _, _, rfl, rfl, h.count.note (hentry hb)⟩

/-- The same line on both. -/
theorem send (h : l.Twin k k' l') (now : Nat) (text : String) :
    ∃ t m m', l.send now text = (t, m) ∧ l'.send now text = (t, m') ∧ m.Twin k k' m' :=
  h.send_pair now rfl (.sent now)

/-- The login line of each account. -/
theorem send_login (h : l.Twin k k' l') (now : Nat) :
    ∃ t m m', l.send now k.login = (t, m) ∧ l'.send now k'.login = (t, m') ∧ m.Twin k k' m' :=
  h.send_pair now (by rw [login_unbroken, login_unbroken]) fun _ => .login now

theorem sends (h : l.Twin k k' l') {now : Nat} {text : String} {t : Option Trouble} {m : Link}
    (hs : l.send now text = (t, m)) : ∃ m', l'.send now text = (t, m') ∧ m.Twin k k' m' := by
  obtain ⟨t', n, n', hn, hn', htwin⟩ := h.send now text
  rw [hs] at hn
  cases hn
  exact ⟨n', hn', htwin⟩

theorem greet (h : l.Twin k k' l') (patience : Deadline) (now : Nat) :
    (l.greet patience now).Twin k k' (l'.greet patience now) := by
  rcases hh : l.hear patience now with ⟨heard, time, m⟩
  obtain ⟨m', hh', hm⟩ := h.hear hh
  unfold Link.greet
  rw [hh, hh']
  cases heard with
  | nothing | ended | failed _ => exact .mk hm
  | line first =>
    simp only
    split
    · rcases hh₂ : m.hear patience time with ⟨heard, time₂, m₂⟩
      obtain ⟨m₂', hh₂', hm₂⟩ := hm.hear hh₂
      rw [hh₂']
      cases heard <;> exact .mk hm₂
    · exact .mk hm

theorem reply (h : l.Twin k k' l') (deadline : Deadline) (now : Nat) (records : List Record) :
    (l.reply deadline now records).Twin k k' (l'.reply deadline now records) := by
  fun_induction Link.reply l deadline now records generalizing l' with
  | case1 l now records time m hh | case2 l now records time m hh
  | case3 l now records t time m hh =>
    obtain ⟨m', hh', hm⟩ := h.hear hh
    rw [Link.reply_eq, hh']
    exact .mk hm
  | case4 l now records text time m hh s hs hok | case5 l now records text time m hh s hs hok =>
    obtain ⟨m', hh', hm⟩ := h.hear hh
    rw [Link.reply_eq, hh']
    simp only [hs, hok]
    exact .mk hm
  | case6 l now records text time m hh hs ih =>
    obtain ⟨m', hh', hm⟩ := h.hear hh
    rw [Link.reply_eq l', hh']
    simp only [hs]
    exact ih hm

/-- **A command comes to the same** on two twins, if the two lines written are the same or the two login
lines, and begin with the same word. -/
theorem command_pair (timeLimit : Nat) (patience : Deadline) (now : Nat)
    {text text' : String} (hname : Link.commandName text' = Link.commandName text)
    (hsend : ∃ t m m', l.send now text = (t, m) ∧ l'.send now text' = (t, m') ∧ m.Twin k k' m') :
    (l.command timeLimit patience now text).Twin k k' (l'.command timeLimit patience now text') := by
  obtain ⟨t, m, m', hs, hs', hm⟩ := hsend
  unfold Link.command
  rw [hs, hs', hname]
  cases t with
  | some t => exact .mk hm
  | none =>
    have hreply := hm.reply (Deadline.earlier (some (now + timeLimit)) patience) now []
    simp only
    generalize m.reply _ now [] = turn, m'.reply _ now [] = turn' at *
    cases hreply with
    | @mk result time n n' hn =>
      simp only
      split
      · exact .mk hn
      · split
        · exact .mk hn
        · exact .mk hn

theorem command (h : l.Twin k k' l') (timeLimit : Nat) (patience : Deadline) (now : Nat)
    (text : String) :
    (l.command timeLimit patience now text).Twin k k' (l'.command timeLimit patience now text) :=
  command_pair timeLimit patience now rfl (h.send now text)

theorem command_login (h : l.Twin k k' l') (timeLimit : Nat) (patience : Deadline) (now : Nat) :
    (l.command timeLimit patience now k.login).Twin k k'
      (l'.command timeLimit patience now k'.login) :=
  command_pair timeLimit patience now (by rw [commandName_login, commandName_login])
    (h.send_login now)

theorem acknowledged_pair (patience : Deadline) (now : Nat) {text text' : String}
    (hsend : ∃ t m m', l.send now text = (t, m) ∧ l'.send now text' = (t, m') ∧ m.Twin k k' m') :
    (l.acknowledged patience now text).Twin k k' (l'.acknowledged patience now text') := by
  obtain ⟨t, m, m', hs, hs', hm⟩ := hsend
  unfold Link.acknowledged
  rw [hs, hs']
  cases t with
  | some t => exact .mk hm
  | none =>
    simp only
    rcases hh : m.hear patience now with ⟨heard, time, n⟩
    obtain ⟨n', hh', hn⟩ := hm.hear hh
    rw [hh']
    cases heard <;> exact .mk hn

theorem writeLine (h : l.Twin k k' l') (now : Nat) (text : String) :
    (l.writeLine now text).Twin k k' (l'.writeLine now text) := by
  obtain ⟨t, m, m', hs, hs', hm⟩ := h.send now text
  unfold Link.writeLine
  rw [hs, hs']
  cases t <;> exact .mk hm

theorem ofPeer (p : Peer) : (Link.ofPeer p).Twin k k' (Link.ofPeer p) := .mk .nil

end Link.Twin

end Exchanges

section Callers

variable {k k' : Credentials} {c c' : Client} {l l' : Link}

namespace Client.Twin

theorem accounts (h : c.Twin k k' c') : c.credentials = k ∧ c'.credentials = k' := by
  cases h
  exact ⟨rfl, rfl⟩

theorem giveUp (h : c.Twin k k' c') (hl : l.Twin k k' l') :
    (c.giveUp l).Twin k k' (c'.giveUp l') := by
  cases h with
  | mk hslot hpast => exact .mk hslot (.cons hl hpast)

theorem keep (h : c.Twin k k' c') (hl : l.Twin k k' l') :
    { c with slot := some l }.Twin k k' { c' with slot := some l' } := by
  cases h with
  | mk _ hpast => exact .mk (.some hl) hpast

theorem lend (h : c.Twin k k' c') : { c with slot := none }.Twin k k' { c' with slot := none } := by
  cases h with
  | mk _ hpast => exact .mk .none hpast

theorem fresh (k k' : Credentials) (dials : List Dial) (exhausted : Fault) :
    (Client.fresh k dials exhausted).Twin k k' (Client.fresh k' dials exhausted) := .mk .none .nil

theorem dialled_eq (h : c.Twin k k' c') : c'.dialled = c.dialled := by
  cases h
  rfl

/-- Connection by connection, the logs are twins. -/
theorem links (h : c.Twin k k' c') :
    List.Forall₂ (fun l l' => List.Forall₂ (Entry.Twin k k') l.log l'.log) c.links c'.links := by
  have hlog : ∀ l l' : Link, l.Twin k k' l' → List.Forall₂ (Entry.Twin k k') l.log l'.log := by
    rintro _ _ ⟨hlog⟩
    exact hlog
  cases h with
  | mk hslot hpast =>
    refine List.rel_append (List.rel_reverse (hpast.imp hlog)) ?_
    cases hslot with
    | none => exact .nil
    | some hl => exact .cons (hlog _ _ hl) .nil

/-- Both have a connection, or neither has. -/
theorem slots (h : c.Twin k k' c') : c.slot = none ∧ c'.slot = none ∨
    ∃ l l', c.slot = some l ∧ c'.slot = some l' ∧ l.Twin k k' l' := by
  cases h with
  | mk hslot _ =>
    cases hslot with
    | none => exact Or.inl ⟨rfl, rfl⟩
    | some hl => exact Or.inr ⟨_, _, rfl, rfl, hl⟩

/-- The next stream opens for both, or for neither. -/
theorem dial (h : c.Twin k k' c') :
    (∃ f d d', c.dial = (.error f, d) ∧ c'.dial = (.error f, d') ∧ d.Twin k k' d') ∨
      ∃ l l' d d', c.dial = (.ok l, d) ∧ c'.dial = (.ok l', d') ∧ l.Twin k k' l' ∧
        d.Twin k k' d' := by
  cases h with
  | @mk dials exhausted slot slot' past past' dialled hslot hpast =>
    unfold Client.dial
    rcases dials with _ | ⟨f | p, rest⟩
    · exact Or.inl ⟨_, _, _, rfl, rfl, .mk hslot hpast⟩
    · exact Or.inl ⟨_, _, _, rfl, rfl, .mk hslot hpast⟩
    · exact Or.inr ⟨_, _, _, _, rfl, rfl, .ofPeer p, .mk hslot hpast⟩

theorem signIn (h : c.Twin k k' c') (huse : k'.use = k.use) (patience : Deadline) (now : Nat) :
    SignsInAlike k k' (c.signIn patience now) (c'.signIn patience now) := by
  unfold Client.signIn
  rcases h.dial with ⟨f, d, d', hd, hd', htwin⟩ | ⟨l, l', d, d', hd, hd', hl, htwin⟩
  · rw [hd, hd']
    exact .refused htwin
  · rw [hd, hd']
    obtain ⟨hk, hk'⟩ := htwin.accounts
    have hgreet := hl.greet patience now
    simp only [hk, hk', huse]
    generalize l.greet patience now = greeted, l'.greet patience now = greeted' at *
    obtain @⟨result, time, m, m', hm⟩ := hgreet
    rcases result with _ | f | ⟨⟩
    · exact .givenUp (htwin.giveUp hm)
    · exact .refused (htwin.giveUp hm)
    · have hlogin := hm.command_login Link.defaultTimeLimit patience time
      simp only
      generalize m.command Link.defaultTimeLimit patience time k.login = known,
        m'.command Link.defaultTimeLimit patience time k'.login = known' at *
      obtain @⟨result, time, n, n', hn⟩ := hlogin
      rcases result with _ | f | _
      · exact .givenUp (htwin.giveUp hn)
      · exact .refused (htwin.giveUp hn)
      · have hready := hn.command Link.defaultTimeLimit patience time k.use
        simp only
        generalize n.command Link.defaultTimeLimit patience time k.use = ready,
          n'.command Link.defaultTimeLimit patience time k.use = ready' at *
        obtain @⟨result, time, _, _, hn'⟩ := hready
        rcases result with _ | f | _
        · exact .givenUp (htwin.giveUp hn')
        · exact .refused (htwin.giveUp hn')
        · exact .accepted hn' htwin

theorem connect (h : c.Twin k k' c') (huse : k'.use = k.use) (patience : Deadline) (now : Nat) :
    (c.connect patience now).Twin k k' (c'.connect patience now) := by
  unfold Client.connect
  have hsign := h.signIn huse patience now
  generalize c.signIn patience now = signed, c'.signIn patience now = signed' at *
  cases hsign with
  | accepted hl htwin => exact .mk (htwin.keep hl)
  | refused htwin | givenUp htwin => exact .mk htwin

theorem runOn (h : c.Twin k k' c') (hl : l.Twin k k' l') (patience : Deadline) (now : Nat)
    (text : String) : (c.runOn l patience now text).Twin k k' (c'.runOn l' patience now text) := by
  unfold Client.runOn
  have hcommand := hl.command Link.defaultTimeLimit patience now text
  simp only
  generalize l.command Link.defaultTimeLimit patience now text = turn,
    l'.command Link.defaultTimeLimit patience now text = turn' at *
  obtain @⟨result, time, m, m', hm⟩ := hcommand
  rcases result with _ | f | records
  · exact .mk (h.giveUp hm)
  · simp only
    split
    · exact .mk (h.giveUp hm)
    · exact .mk (h.keep hm)
  · exact .mk (h.keep hm)

theorem perform (h : c.Twin k k' c') (huse : k'.use = k.use) (patience : Deadline) (now : Nat)
    (text : String) :
    (c.perform patience now text).Twin k k' (c'.perform patience now text) := by
  unfold Client.perform
  rcases h.slots with ⟨hslot, hslot'⟩ | ⟨l, l', hslot, hslot', hl⟩
  · rw [hslot, hslot']
    have hsign := h.signIn huse patience now
    simp only
    generalize c.signIn patience now = signed, c'.signIn patience now = signed' at *
    cases hsign with
    | accepted hl htwin => exact htwin.runOn hl patience _ text
    | refused htwin | givenUp htwin => exact .mk htwin
  · rw [hslot, hslot']
    exact h.lend.runOn hl patience now text

theorem leave (h : c.Twin k k' c') (now : Nat) : (c.leave now).Twin k k' (c'.leave now) := by
  unfold Client.leave
  rcases h.slots with ⟨hslot, hslot'⟩ | ⟨l, l', hslot, hslot', hl⟩
  · rw [hslot, hslot']
    exact .mk h
  · rw [hslot, hslot']
    have hwrite := hl.writeLine now "quit"
    simp only
    generalize l.writeLine now "quit" = turn, l'.writeLine now "quit" = turn' at *
    obtain @⟨result, time, m, m', hm⟩ := hwrite
    exact .mk (h.lend.giveUp hm)

/-- **A served request comes to the same.** -/
theorem serve (h : c.Twin k k' c') (huse : k'.use = k.use) (patience : Deadline) (now : Nat)
    (r : Request) : (c.serve patience now r).Twin k k' (c'.serve patience now r) := by
  by_cases hquit : r = .quit
  · subst hquit
    exact h.leave now
  · rcases hcommand : r.command with _ | text
    · rw [Client.serve_of_command_none hcommand, Client.serve_of_command_none hcommand]
      exact .mk h
    · rw [Client.serve_of_command hcommand hquit, Client.serve_of_command hcommand hquit]
      have hperform := h.perform huse patience now text
      generalize c.perform patience now text = call, c'.perform patience now text = call' at *
      obtain @⟨result, time, d, d', hd⟩ := hperform
      exact .mk hd

end Client.Twin

namespace Schedule.Twin

variable {s s' : Schedule}

theorem enqueue (h : s.Twin k k' s') (i : Nat) : (s.enqueue i).Twin k k' (s'.enqueue i) := by
  cases h with
  | mk hc =>
    unfold Schedule.enqueue
    simp only
    split
    · exact .mk hc
    · split
      · exact .mk hc
      · exact .mk hc

theorem wakeUntil (h : s.Twin k k' s') (time n : Nat) :
    (s.wakeUntil time n).Twin k k' (s'.wakeUntil time n) := by
  induction n generalizing s s' with
  | zero => exact h
  | succ n ih =>
    obtain @⟨now, tasks, queue, c, c', hc⟩ := h
    unfold Schedule.wakeUntil
    simp only
    split
    · exact .mk hc
    · split
      · exact .mk hc
      · split
        · exact .mk hc
        · exact ih (enqueue (.mk hc) _)

theorem setStage (h : s.Twin k k' s') (i : Nat) (stage : Stage) :
    { s with tasks := Schedule.setStage s.tasks i stage }.Twin k k'
      { s' with tasks := Schedule.setStage s'.tasks i stage } := by
  cases h with
  | mk hc => exact .mk hc

theorem served (h : s.Twin k k' s') (huse : k'.use = k.use) (i : Nat) (queue : List Nat) (t : Task)
    (r : Request) : (s.served i queue t r).Twin k k' (s'.served i queue t r) := by
  cases h with
  | @mk now tasks queue' c c' hc =>
    unfold Schedule.served
    have hserve := hc.serve huse t.waiting now r
    simp only
    generalize c.serve t.waiting now r = call, c'.serve t.waiting now r = call' at *
    cases hserve with
    | @mk result time d d' hd =>
      have hbegun : Schedule.Twin k k' ⟨time, d, tasks, queue⟩ ⟨time, d', tasks, queue⟩ := .mk hd
      exact ((hbegun.wakeUntil time tasks.length).setStage i _).enqueue i

/-- **A step does the same**, or neither schedule has anything to do. -/
theorem step (h : s.Twin k k' s') (huse : k'.use = k.use) :
    Option.Rel (Schedule.Twin k k') s.step s'.step := by
  have hserved := h.served huse
  cases h with
  | @mk now tasks queue c c' hc =>
    unfold Schedule.step
    rcases queue with _ | ⟨i, queue⟩
    · simp only
      rcases Schedule.firstAlarm tasks with _ | ⟨i, a⟩
      · exact .none
      · exact .some (wakeUntil (.mk hc) a tasks.length)
    · simp only
      rcases tasks[i]? with _ | t
      · exact .some (.mk hc)
      · simp only
        rcases t.stage.request? with _ | r
        · exact .some (.mk hc)
        · simp only
          split
          · exact .some (.mk hc)
          · exact .some (hserved i queue t r)

theorem move (h : s.Twin k k' s') (huse : k'.use = k.use) (m : Move) :
    (s.move m).Twin k k' (s'.move m) := by
  cases m with
  | join job patience =>
    cases h with
    | mk hc => exact enqueue (.mk hc) _
  | pass length =>
    cases h with
    | mk hc => exact wakeUntil (.mk hc) _ _
  | step =>
    have hstep := h.step huse
    unfold Schedule.move
    simp only
    generalize s.step = next, s'.step = next' at *
    cases hstep with
    | none => exact h
    | some hnext => exact hnext

end Schedule.Twin

/-- **Every run of callers comes to the same.** -/
theorem play_twin (huse : k'.use = k.use) (dials : List Dial) (exhausted : Fault)
    (patience : Deadline) (moves : List Schedule.Move) :
    (Schedule.play k dials exhausted patience moves).Twin k k'
      (Schedule.play k' dials exhausted patience moves) := by
  have hconnect := (Client.Twin.fresh k k' dials exhausted).connect huse patience 0
  unfold Schedule.play
  generalize (Client.fresh k dials exhausted).connect patience 0 = call,
    (Client.fresh k' dials exhausted).connect patience 0 = call' at *
  cases hconnect with
  | @mk result now c c' hc =>
    have hstart : Schedule.Twin k k' ⟨now, c, [], []⟩ ⟨now, c', [], []⟩ := .mk hc
    simp only
    generalize (⟨now, c, [], []⟩ : Schedule) = s, (⟨now, c', [], []⟩ : Schedule) = s' at *
    induction moves generalizing s s' with
    | nil => exact hstart
    | cons m moves ih => exact ih _ _ (hstart.move huse m)

end Callers

section Sessions

variable {k k' : Credentials} {l l' : Link}

namespace EventStream

/-- A command of the handshake, then the rest of it. -/
theorem register_cons_twin {stopAt now : Nat} {text text' : String} {texts texts' : List String}
    (hsend : ∃ t m m', l.send now text = (t, m) ∧ l'.send now text' = (t, m') ∧ m.Twin k k' m')
    (hrest : ∀ time {m m' : Link}, m.Twin k k' m' →
      (register stopAt time m texts).Twin k k' (register stopAt time m' texts')) :
    (register stopAt now l (text :: texts)).Twin k k'
      (register stopAt now l' (text' :: texts')) := by
  have hknown := Link.Twin.acknowledged_pair (some stopAt) now hsend
  unfold register
  simp only
  generalize l.acknowledged (some stopAt) now text = turn,
    l'.acknowledged (some stopAt) now text' = turn' at *
  cases hknown with
  | @mk result time m m' hm =>
    rcases result with _ | f | _
    · exact .mk hm
    · exact .mk hm
    · exact hrest time hm

theorem register_twin (h : l.Twin k k' l') (stopAt now : Nat) (texts : List String) :
    (register stopAt now l texts).Twin k k' (register stopAt now l' texts) := by
  induction texts generalizing l l' now with
  | nil => exact .mk h
  | cons text texts ih => exact register_cons_twin (h.send now text) fun time _ _ hm => ih hm time

/-- The handshakes of two accounts. -/
theorem handshake_twin (h : l.Twin k k' l') (huse : k'.use = k.use) (stopAt now : Nat) :
    (register stopAt now l (handshake k)).Twin k k' (register stopAt now l' (handshake k')) := by
  unfold handshake
  rw [huse]
  exact register_cons_twin (h.send_login now) fun time _ _ hm => register_twin hm stopAt time _

/-- **Relaying comes to the same.** -/
theorem streamWith_twin {σ : Type} (take : σ → Bool → String → σ) (beat stopAt now : Nat) (x : σ)
    (l : Link) : ∀ l' : Link, l.Twin k k' l' →
      (streamWith take beat stopAt now x l).Twin k k' (streamWith take beat stopAt now x l') := by
  fun_induction streamWith take beat stopAt now x l with
  | case1 now x l due now' m heq hlate =>
    intro l' h
    obtain ⟨m', heq', hm⟩ := h.hear heq
    rw [streamWith_eq, heq']
    simp only [due] at hlate
    simp only [if_pos hlate]
    exact .mk hm
  | case2 now x l due now' m heq hlate t n hsent =>
    intro l' h
    obtain ⟨m', heq', hm⟩ := h.hear heq
    obtain ⟨n', hsent', hn⟩ := hm.sends hsent
    rw [streamWith_eq, heq']
    simp only [due] at hlate hsent'
    simp only [if_neg hlate, hsent']
    exact .mk hn
  | case3 now x l due now' m heq hlate n hsent ih =>
    intro l' h
    obtain ⟨m', heq', hm⟩ := h.hear heq
    obtain ⟨n', hsent', hn⟩ := hm.sends hsent
    rw [streamWith_eq take beat stopAt now x l', heq']
    simp only [due] at hlate hsent'
    simp only [if_neg hlate, hsent']
    exact ih _ hn
  | case4 now x l due now' m heq | case5 now x l due t now' m heq =>
    intro l' h
    obtain ⟨m', heq', hm⟩ := h.hear heq
    rw [streamWith_eq, heq']
    exact .mk hm
  | case6 now x l due text now' m heq htext ih =>
    intro l' h
    obtain ⟨m', heq', hm⟩ := h.hear heq
    rw [streamWith_eq take beat stopAt now x l', heq']
    simp only [htext]
    exact ih _ hm
  | case7 now x l due text now' m heq message htext x' hshut =>
    intro l' h
    obtain ⟨m', heq', hm⟩ := h.hear heq
    rw [streamWith_eq, heq']
    simp only [htext, hm.shut_eq, if_pos hshut]
    exact .mk hm
  | case8 now x l due text now' m heq message htext x' hshut ih =>
    intro l' h
    obtain ⟨m', heq', hm⟩ := h.hear heq
    rw [streamWith_eq take beat stopAt now x l', heq']
    simp only [htext, hm.shut_eq, if_neg hshut]
    exact ih _ hm

/-- **Every session comes to the same**, whatever is done with its messages. -/
theorem sessionWith_twin {σ : Type} (take : σ → Bool → String → σ) (s : StreamSettings)
    {account : Credentials} (huse : account.use = s.credentials.use) (stopAt now : Nat) (x : σ)
    (h : l.Twin s.credentials account l') :
    (sessionWith take s stopAt now x l).Twin s.credentials account
      (sessionWith take { s with credentials := account } stopAt now x l') := by
  have hgreet := (h.note (.published .handshaking)).greet (some stopAt) now
  unfold sessionWith Link.publish
  simp only
  generalize (l.note (.published .handshaking)).greet (some stopAt) now = greeted,
    (l'.note (.published .handshaking)).greet (some stopAt) now = greeted' at *
  cases hgreet with
  | @mk result time m m' hm =>
    rcases result with _ | f | ⟨⟩
    · exact .mk hm
    · exact .mk hm
    · have hregister := handshake_twin hm huse stopAt time
      simp only [registeredWith]
      generalize register stopAt time m (handshake s.credentials) = known,
        register stopAt time m' (handshake account) = known' at *
      cases hregister with
      | @mk result time n n' hn =>
        rcases result with _ | f | ⟨⟩
        · exact .mk hn
        · exact .mk hn
        · exact streamWith_twin take s.keepalive stopAt time x _ _
            ((hn.note (.published .registered)).note (.published .streaming))

end EventStream

end Sessions

/-- **The account makes no difference.** Two clients whose accounts differ in user name and password alone,
against the same streams and with the same callers: signing in at first comes to the same, and in every
run the callers stand where they stand in the other, with the same results at the same times, the same
number of streams was opened, and connection by connection the two logs are the same entry by entry, but
for login lines. So it is with every session of the event stream: what it comes to, when, with which
messages and which states. A login line has three fields, the escaped name and password are the second
and the third of them, and both can be read back. The form for logs does not depend on the password. -/
theorem account_irrelevant (k : Credentials) (user password : String) :
    let k' := k.withAccount user password
    (∀ (dials : List Dial) (exhausted : Fault) (patience : Deadline) (moves : List Schedule.Move),
      let first := (Client.fresh k dials exhausted).connect patience 0
      let first' := (Client.fresh k' dials exhausted).connect patience 0
      let s := Schedule.play k dials exhausted patience moves
      let s' := Schedule.play k' dials exhausted patience moves
      (first'.result = first.result ∧ first'.now = first.now) ∧
        (s'.now = s.now ∧ s'.tasks = s.tasks ∧ s'.queue = s.queue) ∧
        s'.client.dialled = s.client.dialled ∧
        List.Forall₂ (fun l l' => List.Forall₂ (Entry.Twin k k') l.log l'.log)
          s.client.links s'.client.links) ∧
    (∀ {σ : Type} (take : σ → Bool → String → σ) (beat pause dialLimit stopAt now : Nat) (x : σ)
        (p : Peer),
      let out := EventStream.sessionWith take ⟨k, beat, pause, dialLimit⟩ stopAt now x (.ofPeer p)
      let out' := EventStream.sessionWith take ⟨k', beat, pause, dialLimit⟩ stopAt now x (.ofPeer p)
      out'.result = out.result ∧ out'.now = out.now ∧ out'.intake = out.intake ∧
        List.Forall₂ (Entry.Twin k k') out.link.log out'.link.log) ∧
    (Line.breaks k.login = false ∧
      k.login.toList.splitOn ' ' =
        ["login".toList, (Escape.encode k.user).toList, (Escape.encode k.password).toList] ∧
      Escape.decode (Escape.encode k.user) = k.user ∧
      Escape.decode (Escape.encode k.password) = k.password) ∧
    (k.withAccount k.user password).display = k.display := by
  intro k'
  have huse : k'.use = k.use := rfl
  refine ⟨fun dials exhausted patience moves => ?_,
    fun take beat pause dialLimit stopAt now x p => ?_,
    ⟨login_unbroken k, login_fields k, Escape.decode_encode _, Escape.decode_encode _⟩, rfl⟩
  · have hconnect := (Client.Twin.fresh k k' dials exhausted).connect huse patience 0
    have hplay := play_twin huse dials exhausted patience moves
    intro first first' s s'
    change first.Twin k k' first' at hconnect
    change s.Twin k k' s' at hplay
    have hfirst : first'.result = first.result ∧ first'.now = first.now := by
      generalize first = call, first' = call' at *
      cases hconnect
      exact ⟨rfl, rfl⟩
    generalize s = t, s' = t' at *
    cases hplay with
    | mk hc => exact ⟨hfirst, ⟨rfl, rfl, rfl⟩, hc.dialled_eq, hc.links⟩
  · have hsession := EventStream.sessionWith_twin take ⟨k, beat, pause, dialLimit⟩ huse stopAt now x
      (.ofPeer p)
    intro out out'
    change out.Twin k k' out' at hsession
    generalize out = t, out' = t' at *
    cases hsession with
    | mk hl =>
      cases hl with
      | mk hlog => exact ⟨rfl, rfl, rfl, hlog⟩

end VoiceRelay
