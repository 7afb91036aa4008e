import VoiceRelay.Proofs.SharedConnection
import Mathlib.Logic.Function.Iterate

/-!
# A call in small steps

The caller that has the connection does not run through without a break: it pauses whenever it opens a
stream, writes a line or waits for one, and others can be looked after meanwhile. Here a call is cut up
at these points, and put together again it is the served request.

**Design.** A `Juncture` is the point at which the caller stands, the time and the client. `advance` goes
on to the next point; a call that has come to its result stays there, and so does one that waits for a
line of the greeting that never comes. The time limit of a reply is fixed when its command is written.

**Results.**

- `Leads.join`, `Leads.eq_of_still`: from one moment there is one way on.
- `reading_leads`, `writing_leads`, `opening_comes`, `own_comes`: what each part of a call comes to.
- `taking_comes`: a call that takes the connection comes to what serving its request comes to.
-/

namespace VoiceRelay

section Defs

/-- The commands of a call: the two of signing in, and its own. -/
inductive Errand
  | login
  | use
  | own

/-- The line of a command. -/
def Errand.line (k : Credentials) (r : Request) : Errand → String
  | login => k.login
  | use => k.use
  | own => r.command.getD ""

/-- Where the caller that has the connection stands. -/
inductive Point
  | taking
  | opening
  | banner (l : Link)
  | greeting (l : Link)
  | writing (e : Errand) (l : Link)
  | reading (e : Errand) (limit : Nat) (records : List Record) (l : Link)
  | leaving (l : Link)
  | returning (result : Except Fault Answer)

/-- The caller that has the connection, the time, and the client. -/
structure Juncture where
  point : Point
  now : Nat
  client : Client

namespace Juncture

/-- What follows a command and its reply: the next command, or the result of the call. -/
def closes (r : Request) (c : Client) (now : Nat) (l : Link) :
    Errand → Except Fault (List Record) → Juncture
  | .login, .ok _ => ⟨.writing .use l, now, c⟩
  | .use, .ok _ => ⟨.writing .own l, now, c⟩
  | .own, .ok records => ⟨.returning (r.answer records), now, { c with slot := some l }⟩
  | .own, .error f =>
    ⟨.returning (.error f), now, if f.losesLink then c.giveUp l else { c with slot := some l }⟩
  | _, .error f => ⟨.returning (.error f), now, c.giveUp l⟩

/-- What a command fails with when its reply took too long. -/
def overdue (k : Credentials) (r : Request) (e : Errand) : Fault :=
  .timeLimit ("Antwort auf '" ++ Link.commandName (e.line k r) ++ "'")

/-- Goes on to the next point at which the caller pauses. -/
def advance (r : Request) (m : Juncture) : Juncture :=
  match m with
  | ⟨.taking, now, c⟩ =>
    match c.slot with
    | none => if r = .quit then ⟨.returning (.ok .done), now, c⟩ else ⟨.opening, now, c⟩
    | some l =>
      ⟨if r = .quit then .leaving l else .writing .own l, now, { c with slot := none }⟩
  | ⟨.opening, now, c⟩ =>
    match c.dial with
    | (.error f, c) => ⟨.returning (.error f), now, c⟩
    | (.ok l, c) => ⟨.banner l, now, c⟩
  | ⟨.banner l, now, c⟩ =>
    match l.hear none now with
    | (.nothing, _, _) => ⟨.banner l, now, c⟩
    | (.ended, now, l) => ⟨.returning (.error .bannerMissing), now, c.giveUp l⟩
    | (.failed t, now, l) => ⟨.returning (.error (.stream t)), now, c.giveUp l⟩
    | (.line first, now, l) =>
      if Text.trim first.toList = Link.banner then ⟨.greeting l, now, c⟩
      else ⟨.returning (.error (.bannerWrong first)), now, c.giveUp l⟩
  | ⟨.greeting l, now, c⟩ =>
    match l.hear none now with
    | (.nothing, _, _) => ⟨.greeting l, now, c⟩
    | (.ended, now, l) => ⟨.returning (.error .greetingMissing), now, c.giveUp l⟩
    | (.failed t, now, l) => ⟨.returning (.error (.stream t)), now, c.giveUp l⟩
    | (.line _, now, l) => ⟨.writing .login l, now, c⟩
  | ⟨.writing e l, now, c⟩ =>
    match l.send now (e.line c.credentials r) with
    | (some t, l) => closes r c now l e (.error (.stream t))
    | (none, l) => ⟨.reading e (now + Link.defaultTimeLimit) [] l, now, c⟩
  | ⟨.reading e limit records l, now, c⟩ =>
    match l.hear (some limit) now with
    | (.nothing, now, l) => closes r c now l e (.error (overdue c.credentials r e))
    | (.ended, now, l) => closes r c now l e (.error .closed)
    | (.failed t, now, l) => closes r c now l e (.error (.stream t))
    | (.line text, now, l) =>
      match Status.parse? text with
      | some s =>
        closes r c now l e (if s.isOk then .ok records else .error (.refusal s.id s.message))
      | none => ⟨.reading e limit (records ++ Link.recordsIn text) l, now, c⟩
  | ⟨.leaving l, now, c⟩ =>
    match l.send now "quit" with
    | (some t, l) => ⟨.returning (.error (.stream t)), now, c.giveUp l⟩
    | (none, l) => ⟨.returning (.ok .done), now, c.giveUp l⟩
  | ⟨.returning result, now, c⟩ => ⟨.returning result, now, c⟩

/-- One moment leads to another in some steps. -/
def Leads (r : Request) (m m' : Juncture) : Prop := ∃ n, (advance r)^[n] m = m'

/-- A moment at which the caller waits for good. -/
def Stuck (r : Request) (m : Juncture) : Prop :=
  advance r m = m ∧ ∀ result, m.point ≠ .returning result

/-- A call comes to what serving its request has come to; without a result, it waits for good. -/
def Comes (r : Request) (m : Juncture) (call : Call Answer) : Prop :=
  match call.result with
  | some result => Leads r m ⟨.returning result, call.now, call.client⟩
  | none => ∃ m', Leads r m m' ∧ Stuck r m'

end Juncture

end Defs

namespace Juncture

variable {r : Request} {m m' m'' : Juncture} {c : Client} {l : Link} {now : Nat}

section Leading

theorem Leads.refl (r : Request) (m : Juncture) : Leads r m m := ⟨0, rfl⟩

theorem Leads.trans (h : Leads r m m') (h' : Leads r m' m'') : Leads r m m'' := by
  obtain ⟨n, rfl⟩ := h
  obtain ⟨n', rfl⟩ := h'
  exact ⟨n' + n, Function.iterate_add_apply _ n' n m⟩

theorem Leads.step (r : Request) (m : Juncture) : Leads r m (advance r m) := ⟨1, rfl⟩

theorem Leads.of_step (h : advance r m = m') : Leads r m m' := h ▸ .step r m

theorem Leads.cons (h : advance r m = m') (h' : Leads r m' m'') : Leads r m m'' :=
  (Leads.of_step h).trans h'

/-- Of two moments that one moment leads to, one leads to the other. -/
theorem Leads.join (h : Leads r m m') (h' : Leads r m m'') : Leads r m' m'' ∨ Leads r m'' m' := by
  obtain ⟨n, rfl⟩ := h
  obtain ⟨n', rfl⟩ := h'
  rcases Nat.le_total n n' with hle | hle
  · refine Or.inl ⟨n' - n, ?_⟩
    rw [← Function.iterate_add_apply, Nat.sub_add_cancel hle]
  · refine Or.inr ⟨n - n', ?_⟩
    rw [← Function.iterate_add_apply, Nat.sub_add_cancel hle]

/-- A moment at which nothing changes leads nowhere else. -/
theorem Leads.eq_of_still (hm : advance r m = m) (h : Leads r m m') : m' = m := by
  obtain ⟨n, rfl⟩ := h
  exact Function.iterate_fixed hm n

theorem advance_returning (r : Request) (result : Except Fault Answer) (now : Nat) (c : Client) :
    advance r ⟨.returning result, now, c⟩ = ⟨.returning result, now, c⟩ := rfl

theorem Comes.of_leads {call : Call Answer} (h : Leads r m m') (hc : Comes r m' call) :
    Comes r m call := by
  unfold Comes at hc ⊢
  split
  · next result hresult =>
    rw [hresult] at hc
    exact h.trans hc
  · next hresult =>
    rw [hresult] at hc
    obtain ⟨m'', hm, hstuck⟩ := hc
    exact ⟨m'', h.trans hm, hstuck⟩

/-- A call comes to one result only. -/
theorem Comes.result_eq {call : Call Answer} (h : Comes r m call) {result : Except Fault Answer}
    (hm : Leads r m ⟨.returning result, now, c⟩) : call = ⟨some result, now, c⟩ := by
  -- Of two moments on one way one leads to the other, and none of these leads anywhere else.
  obtain ⟨_ | answer, now', c'⟩ := call
  · obtain ⟨m', hm', hstill, hnot⟩ := h
    rcases hm'.join hm with hl | hl
    · have heq := hl.eq_of_still hstill
      exact absurd (congrArg Juncture.point heq).symm (hnot result)
    · have heq := hl.eq_of_still (advance_returning ..)
      exact absurd (congrArg Juncture.point heq) (hnot result)
  · rcases Leads.join h hm with hl | hl
    · cases hl.eq_of_still (advance_returning ..)
      rfl
    · cases hl.eq_of_still (advance_returning ..)
      rfl

end Leading

section Commands

theorem reading_leads (r : Request) (c : Client) (e : Errand) (limit now : Nat)
    (records : List Record) (l : Link) :
    let turn := l.reply (some limit) now records
    Leads r ⟨.reading e limit records l, now, c⟩
      (closes r c turn.now turn.link e
        (turn.result.getD (.error (overdue c.credentials r e)))) := by
  fun_induction Link.reply l (some limit) now records with
  | case1 l now records now' l' hh => exact .of_step (by simp only [advance, hh, Option.getD_none])
  | case2 l now records now' l' hh | case3 l now records t now' l' hh =>
    exact .of_step (by simp only [advance, hh, Option.getD_some])
  | case4 l now records text now' l' hh s hs hok | case5 l now records text now' l' hh s hs hok =>
    exact .of_step (by simp [advance, hh, hs, hok])
  | case6 l now records text now' l' hh hs ih => exact .cons (by simp only [advance, hh, hs]) ih

/-- A command of a caller that waits as long as it takes has a result, and the call goes on with it. -/
theorem writing_leads (r : Request) (c : Client) (e : Errand) (now : Nat) (l : Link) :
    let turn := l.command Link.defaultTimeLimit none now (e.line c.credentials r)
    ∃ result, turn.result = some result ∧
      Leads r ⟨.writing e l, now, c⟩ (closes r c turn.now turn.link e result) := by
  unfold Link.command
  rcases hs : l.send now (e.line c.credentials r) with ⟨_ | t, l₁⟩
  · have hwrite : advance r ⟨.writing e l, now, c⟩ =
        ⟨.reading e (now + Link.defaultTimeLimit) [] l₁, now, c⟩ := by
      simp only [advance, hs]
    have hread := Leads.cons hwrite (reading_leads r c e (now + Link.defaultTimeLimit) now [] l₁)
    simp only [Deadline.earlier, Deadline.before] at hread ⊢
    generalize l₁.reply (some (now + Link.defaultTimeLimit)) now [] = turn at *
    rcases hresult : turn.result with _ | result
    · -- Nobody gives up, so only the time limit can have cut the reply short.
      rw [hresult] at hread
      exact ⟨_, rfl, hread⟩
    · rw [hresult] at hread
      exact ⟨result, hresult, hread⟩
  · exact ⟨_, rfl, .of_step (by simp only [advance, hs])⟩

/-- The caller's own command, on a connection that has signed in. -/
theorem own_comes (r : Request) (c : Client) (now : Nat) (l : Link) :
    let call := c.runOn l none now (r.command.getD "")
    Comes r ⟨.writing .own l, now, c⟩ ⟨call.result.map (·.bind r.answer), call.now, call.client⟩ := by
  obtain ⟨result, hresult, hlead⟩ := writing_leads r c .own now l
  simp only [Errand.line] at hresult hlead
  simp only [Client.runOn, hresult]
  cases result with
  | ok records => exact hlead
  | error f => exact hlead

end Commands

section SigningIn

/-- A greeting that is read leads to the login; one that never comes is waited for for good. -/
theorem banner_leads (r : Request) (c : Client) (now : Nat) (l : Link) :
    let turn := l.greet none now
    match turn.result with
    | some (.ok ()) => Leads r ⟨.banner l, now, c⟩ ⟨.writing .login turn.link, turn.now, c⟩
    | some (.error f) =>
      Leads r ⟨.banner l, now, c⟩ ⟨.returning (.error f), turn.now, c.giveUp turn.link⟩
    | none => ∃ m, Leads r ⟨.banner l, now, c⟩ m ∧ Stuck r m := by
  unfold Link.greet
  rcases hh : l.hear none now with ⟨first | _ | _ | _, now₁, l₁⟩
  · by_cases hbanner : Text.trim first.toList = Link.banner
    · have hfirst : advance r ⟨.banner l, now, c⟩ = ⟨.greeting l₁, now₁, c⟩ := by
        simp [advance, hh, hbanner]
      rcases hh' : l₁.hear none now₁ with ⟨second | _ | _ | _, now₂, l₂⟩
      · simp only [hbanner, if_true, hh']
        exact .cons hfirst (.of_step (by simp only [advance, hh']))
      · simp only [hbanner, if_true, hh']
        exact .cons hfirst (.of_step (by simp only [advance, hh']))
      · simp only [hbanner, if_true, hh']
        exact .cons hfirst (.of_step (by simp only [advance, hh']))
      · simp only [hbanner, if_true, hh']
        exact ⟨_, .of_step hfirst, by simp only [advance, hh'], fun _ h => by cases h⟩
    · simp only [hbanner, if_false]
      exact .of_step (by simp [advance, hh, hbanner])
  · exact .of_step (by simp only [advance, hh])
  · exact .of_step (by simp only [advance, hh])
  · exact ⟨_, .refl r _, by simp only [advance, hh], fun _ h => by cases h⟩

/-- Signing in leads to the caller's own command, or to the fault that it ended in. -/
theorem opening_leads (r : Request) (c : Client) (now : Nat) :
    match c.signIn none now with
    | (some (.ok l), now', c') => Leads r ⟨.opening, now, c⟩ ⟨.writing .own l, now', c'⟩
    | (some (.error f), now', c') => Leads r ⟨.opening, now, c⟩ ⟨.returning (.error f), now', c'⟩
    | (none, _, _) => ∃ m, Leads r ⟨.opening, now, c⟩ m ∧ Stuck r m := by
  unfold Client.signIn
  rcases hd : c.dial with ⟨f | l, c₁⟩
  · exact .of_step (by simp only [advance, hd])
  · have hdial : Leads r ⟨.opening, now, c⟩ ⟨.banner l, now, c₁⟩ :=
      .of_step (by simp only [advance, hd])
    have hgreet := banner_leads r c₁ now l
    simp only at hgreet ⊢
    generalize l.greet none now = greeted at *
    rcases hres : greeted.result with _ | f | ⟨⟩
    all_goals
      rw [hres] at hgreet
      simp only at hgreet ⊢
    · obtain ⟨m, hm, hstuck⟩ := hgreet
      exact ⟨m, hdial.trans hm, hstuck⟩
    · exact hdial.trans hgreet
    · have hlogin := writing_leads r c₁ .login greeted.now greeted.link
      simp only [Errand.line] at hlogin
      generalize greeted.link.command Link.defaultTimeLimit none greeted.now
        c₁.credentials.login = known at *
      obtain ⟨f | _, hres, hlogin⟩ := hlogin
      all_goals rw [hres]
      · exact hdial.trans (hgreet.trans hlogin)
      · have huse := writing_leads r c₁ .use known.now known.link
        simp only [Errand.line] at huse ⊢
        generalize known.link.command Link.defaultTimeLimit none known.now
          c₁.credentials.use = ready at *
        obtain ⟨f | _, hres, huse⟩ := huse
        all_goals rw [hres]
        · exact hdial.trans (hgreet.trans (hlogin.trans huse))
        · exact hdial.trans (hgreet.trans (hlogin.trans huse))

end SigningIn

section Calls

theorem leaving_comes (c : Client) (now : Nat) :
    Comes .quit ⟨.taking, now, c⟩ (c.leave now) := by
  unfold Client.leave Link.writeLine
  rcases hslot : c.slot with _ | l
  · exact Leads.of_step (by simp [advance, hslot])
  · have htake : advance .quit ⟨.taking, now, c⟩ = ⟨.leaving l, now, { c with slot := none }⟩ := by
      simp [advance, hslot]
    rcases hs : l.send now "quit" with ⟨_ | t, l₁⟩
    all_goals
      simp only [hs]
      exact Leads.cons htake (.of_step (by simp only [advance, hs]; rfl))

/-- **A call in small steps comes to what serving its request comes to.** -/
theorem taking_comes (hr : r.waits = true) (c : Client) (now : Nat) :
    Comes r ⟨.taking, now, c⟩ (c.serve none now r) := by
  by_cases hq : r = .quit
  · subst hq
    exact leaving_comes c now
  · obtain ⟨text, htext⟩ := Option.isSome_iff_exists.1 hr
    have hown := own_comes r
    simp only [htext, Option.getD_some] at hown
    rw [Client.serve_of_command htext hq]
    unfold Client.perform
    rcases hslot : c.slot with _ | l
    · have htake : Leads r ⟨.taking, now, c⟩ ⟨.opening, now, c⟩ :=
        .of_step (by simp [advance, hslot, hq])
      refine Comes.of_leads htake ?_
      have hopen := opening_leads r c now
      rcases hs : c.signIn none now with ⟨_ | f | l, now₁, c₁⟩
      all_goals
        rw [hs] at hopen
        simp only at hopen ⊢
      · exact hopen
      · exact hopen
      · exact .of_leads hopen (hown c₁ now₁ l)
    · have htake : Leads r ⟨.taking, now, c⟩ ⟨.writing .own l, now, { c with slot := none }⟩ :=
        .of_step (by simp [advance, hslot, hq])
      exact .of_leads htake (hown { c with slot := none } now l)

end Calls

end Juncture

end VoiceRelay
