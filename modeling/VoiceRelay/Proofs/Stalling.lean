import VoiceRelay.Proofs.Interleaving

/-!
# Who can be kept waiting for good

A reply has a time limit, so no command keeps its caller for ever. The greeting of a fresh stream has
none: a stream that opens and then says too little keeps the caller that signs in on it, and with it
everybody who asks for the connection later.

**Design.** The callers left in a `Crowd` are those in the queue and those who have not begun. A move
answers none of them, or one: the first of all, or one whose request needs no connection. So those that
need it are always the last of them all (`InLine`), and one that waits for good has all later ones
behind it.

**Results.**

- `serve_returns`: a call has no result exactly if it signs in on a stream whose greeting never comes;
  after the greeting three time limits bound it.
- `InLine.play`, `InLine.behind`: callers are answered in the order in which they began.
- `returns_unless_greeting_stalls`: which callers can still return, and when.
-/

namespace VoiceRelay

section Defs

/-- The other side has nothing more to say unless it is spoken to. -/
def Link.Mute (l : Link) : Prop :=
  l.script = [] ∨ ∃ count rest, l.script = .awaitLines count :: rest ∧ l.lines < count

/-- The next stream opens, and its greeting never comes. -/
def Client.Stalls (c : Client) (now : Nat) : Prop :=
  ∃ l, c.dial.1 = .ok l ∧ (l.greet none now).result = none

/-- When the first command of a call can be written: at once on the connection in the slot, and on a
fresh stream after its greeting. -/
def Client.heardAt (c : Client) (now : Nat) : Nat :=
  match c.slot, c.dial.1 with
  | none, .ok l => (l.greet none now).now
  | _, _ => now

namespace Crowd

/-- The callers that have not returned. -/
def left (s : Crowd) : List (Request × Nat) := s.queue ++ s.unborn

/-- What a move does to the callers that have not returned. -/
inductive Moves (s s' : Crowd) : Prop
  | quiet : s'.left = s.left → s'.results = s.results → Moves s s'
  | answers {front rest : List (Request × Nat)} {p : Request × Nat}
      {result : Except Fault Answer} : s.left = front ++ p :: rest → s'.left = front ++ rest →
      (front = [] ∨ p.1.waits = false) →
      s'.results = Function.update s.results p.2 (some result) → Moves s s'

/-- The callers left stand in the order in which they began, those that need the connection are the
last of all that need it, and nobody left has a result. -/
structure InLine (rs : List Request) (s : Crowd) : Prop where
  order : s.left.Sublist rs.zipIdx
  last : s.left.filter (fun p => p.1.waits) <:+ rs.zipIdx.filter fun p => p.1.waits
  unanswered : ∀ p ∈ s.left, s.results p.2 = none

end Crowd

end Defs

section Silence

theorem Reader.pop_heard {r r' : Reader} {heard : Heard} (h : r.pop = some (heard, r')) :
    heard ≠ .nothing := by
  unfold Reader.pop at h
  rintro rfl
  cases hphase : r.phase <;> rw [hphase] at h <;> simp only at h
  · cases h
  · split at h <;> cases h
  · split at h <;> cases h
  · cases h
  · cases h

/-- A read without a deadline that brings nothing has come to the end of what the other side says. -/
theorem listen_mute (lines : Nat) (r : Reader) (shut : Bool) (now : Nat) (script : List Step)
    (h : (listen lines none r shut now script).heard = .nothing) :
    (listen lines none r shut now script).script = [] ∨ ∃ count rest,
      (listen lines none r shut now script).script = .awaitLines count :: rest ∧ lines < count := by
  induction script generalizing r shut now with
  | nil => exact Or.inl rfl
  | cons s script ih =>
    cases s with
    | data octets =>
      simp only [listen] at h ⊢
      split
      · next hempty =>
        rw [if_pos hempty] at h
        exact ih r shut now h
      · next hempty =>
        rw [if_neg hempty] at h
        rcases hpop : (r.feed octets).pop with _ | ⟨heard, r'⟩
        · rw [hpop] at h
          exact ih _ shut now h
        · rw [hpop] at h
          exact absurd h (Reader.pop_heard hpop)
    | silence length => exact ih r shut (now + length) h
    | silentUntil time => exact ih r shut (max now time) h
    | awaitLines count =>
      simp only [listen] at h ⊢
      split
      · next hwritten =>
        rw [if_pos hwritten] at h
        exact ih r shut now h
      · next hwaits => exact Or.inr ⟨count, script, rfl, Nat.not_le.1 hwaits⟩
    | trouble cause => cases h
    | finish =>
      simp only [listen] at h
      split at h
      · next heard r' hpop => exact absurd h (Reader.pop_heard hpop)
      · cases h
    | shutInbox => exact ih r true now h

namespace Link

theorem hear_mute {l l' : Link} {now now' : Nat} (h : l.hear none now = (.nothing, now', l')) :
    l'.Mute := by
  unfold hear at h
  rcases hpop : l.reader.pop with _ | ⟨heard, r⟩
  · rw [hpop] at h
    have hmute := listen_mute l.lines l.reader l.inboxShut now l.script
    generalize listen l.lines none l.reader l.inboxShut now l.script = out at *
    obtain ⟨heard, time, r, script, shut⟩ := out
    cases heard <;> cases h
    exact hmute rfl
  · rw [hpop] at h
    have hheard := Reader.pop_heard hpop
    cases heard <;> cases h
    exact absurd rfl hheard

/-- A greeting never comes only if the other side falls silent before the end of it. -/
theorem greet_mute {l : Link} {now : Nat} (h : (l.greet none now).result = none) :
    (l.greet none now).link.Mute := by
  unfold greet at h ⊢
  rcases hfirst : l.hear none now with ⟨_ | _ | _ | _, now₁, l₁⟩
  all_goals
    rw [hfirst] at h
    simp only at h ⊢
  · split
    · next hbanner =>
      rw [if_pos hbanner] at h
      rcases hsecond : l₁.hear none now₁ with ⟨_ | _ | _ | _, now₂, l₂⟩
      all_goals
        rw [hsecond] at h
        simp only at h ⊢
      all_goals first | exact hear_mute hsecond | cases h
    · next hbanner =>
      rw [if_neg hbanner] at h
      cases h
  all_goals first | exact hear_mute hfirst | cases h

end Link

end Silence

section Calls

variable {now : Nat}

/-- A caller without patience of its own always gets an answer to a command, within the time limit. -/
theorem Link.command_returns (l : Link) (now : Nat) (text : String) :
    let turn := l.command defaultTimeLimit none now text
    turn.result ≠ none ∧ turn.now ≤ now + defaultTimeLimit := by
  unfold command
  rcases l.send now text with ⟨_ | t, l₁⟩
  · have hbegun : Deadline.before (some (now + defaultTimeLimit)) now = false :=
      Deadline.before_of_le (Nat.le_add_right ..)
    have hlater := (l₁.reply_later [] hbegun).pending
    simp only [Deadline.earlier]
    generalize l₁.reply (some (now + defaultTimeLimit)) now [] = turn at *
    have hlimit : turn.now ≤ now + defaultTimeLimit := by simpa [Deadline.before] using hlater
    rcases hresult : turn.result with _ | result
    · exact ⟨by simp [Deadline.before], hlimit⟩
    · exact ⟨by simp [hresult], hlimit⟩
  · exact ⟨by simp, Nat.le_add_right ..⟩

namespace Client

/-- Signing in has no result exactly if the greeting never comes. -/
theorem signIn_returns (c : Client) (hslot : c.slot = none) (now : Nat) :
    ((c.signIn none now).1 = none ↔ c.Stalls now) ∧
      (c.signIn none now).2.1 ≤ c.heardAt now + 2 * Link.defaultTimeLimit := by
  unfold signIn Stalls heardAt
  rw [hslot]
  rcases c.dial with ⟨f | l, c₁⟩
  · simp
  · simp only [Except.ok.injEq, exists_eq_left']
    generalize l.greet none now = greeted
    rcases greeted.result with _ | f | ⟨⟩
    · simp
    · simp
    · have hlogin := greeted.link.command_returns greeted.now c₁.credentials.login
      simp only at hlogin ⊢
      generalize greeted.link.command Link.defaultTimeLimit none greeted.now
        c₁.credentials.login = known at *
      obtain ⟨hknown, hknownNow⟩ := hlogin
      rcases hres : known.result with _ | f | _
      · exact absurd hres hknown
      · simp only [reduceCtorEq, iff_self, true_and]
        omega
      · have huse := known.link.command_returns known.now c₁.credentials.use
        simp only at huse ⊢
        generalize known.link.command Link.defaultTimeLimit none known.now
          c₁.credentials.use = ready at *
        obtain ⟨hready, hreadyNow⟩ := huse
        rcases hres : ready.result with _ | f | _
        · exact absurd hres hready
        · simp only [reduceCtorEq, iff_self, true_and]
          omega
        · simp only [reduceCtorEq, iff_self, true_and]
          omega

theorem runOn_returns (c : Client) (l : Link) (now : Nat) (text : String) :
    (c.runOn l none now text).result ≠ none ∧
      (c.runOn l none now text).now ≤ now + Link.defaultTimeLimit := by
  obtain ⟨hanswered, hlimit⟩ := l.command_returns now text
  unfold runOn
  simp only
  generalize l.command Link.defaultTimeLimit none now text = turn at *
  rcases hres : turn.result with _ | f | _
  · exact absurd hres hanswered
  · exact ⟨by simp, hlimit⟩
  · exact ⟨by simp, hlimit⟩

theorem perform_returns (c : Client) (now : Nat) (text : String) :
    ((c.perform none now text).result = none ↔ c.slot = none ∧ c.Stalls now) ∧
      (c.perform none now text).now ≤ c.heardAt now + 3 * Link.defaultTimeLimit := by
  unfold perform
  rcases hslot : c.slot with _ | l
  · obtain ⟨hstalls, hnow⟩ := c.signIn_returns hslot now
    simp only [true_and, ← hstalls]
    generalize c.signIn none now = signed at *
    obtain ⟨_ | f | l, now₁, c₁⟩ := signed
    · exact ⟨by simp, by simp only at hnow ⊢; omega⟩
    · exact ⟨by simp, by simp only at hnow ⊢; omega⟩
    · obtain ⟨hanswered, hlimit⟩ := c₁.runOn_returns l now₁ text
      simp only at hnow ⊢
      exact ⟨by simp [hanswered], by omega⟩
  · obtain ⟨hanswered, hlimit⟩ := { c with slot := none }.runOn_returns l now text
    have hnow : c.heardAt now = now := by simp [heardAt, hslot]
    refine ⟨by simp [hanswered], ?_⟩
    rw [hnow]
    simp only
    omega

theorem le_heardAt (c : Client) (now : Nat) : now ≤ c.heardAt now := by
  unfold heardAt
  split
  · next l _ _ => exact (l.greet_later rfl).le
  · exact Nat.le_refl now

/-- **A call has a result**, unless it signs in on a stream whose greeting never comes. Then or not, it
lasts no longer than three time limits from the end of the greeting. -/
theorem serve_returns (c : Client) (now : Nat) (r : Request) :
    ((c.serve none now r).result = none ↔
        r.waits = true ∧ r ≠ .quit ∧ c.slot = none ∧ c.Stalls now) ∧
      (c.serve none now r).now ≤ c.heardAt now + 3 * Link.defaultTimeLimit := by
  have hheard := c.le_heardAt now
  by_cases hquit : r = .quit
  · subst hquit
    rw [serve_quit]
    unfold leave
    rcases c.slot with _ | l
    · exact ⟨by simp, by simp only; omega⟩
    · refine ⟨?_, by simp only [Link.writeLine_now]; omega⟩
      unfold Link.writeLine
      rcases hsend : l.send now "quit" with ⟨_ | t, l₁⟩ <;> simp [hsend]
  · rcases hcommand : r.command with _ | text
    · rw [serve_of_command_none hcommand]
      exact ⟨by simp [Request.waits, hcommand], by simp only; omega⟩
    · rw [serve_of_command hcommand hquit]
      obtain ⟨hstalls, hnow⟩ := c.perform_returns now text
      exact ⟨by simp [Request.waits, hcommand, hquit, hstalls], hnow⟩

end Client

end Calls

namespace Schedule

/-- What the `i`-th of some requests comes to is what it comes to after those before it. -/
theorem settleAll_getElem (c : Shared) {rs : List Request} {i : Nat} {r : Request}
    (h : rs[i]? = some r) :
    (settleAll c rs).1[i]? = some (settle (settleAll c (rs.take i)).2 r).1 ∧
      (settleAll c (rs.take (i + 1))).2 = (settle (settleAll c (rs.take i)).2 r).2 := by
  induction rs generalizing c i with
  | nil => cases h
  | cons r' rs ih =>
    cases i with
    | zero =>
      cases h
      exact ⟨rfl, rfl⟩
    | succ i => exact ih (settle c r').2 h

theorem settle_gaveUp (c : Shared) (r : Request) :
    (settle c r).1 = .gaveUp ↔ (c.client.serve none (max c.now c.free) r).result = none := by
  rcases hresult : (c.client.serve none (max c.now c.free) r).result with _ | result
  · simp [settle, hresult, endingOf]
  · simp [settle, hresult, endingOf]

/-- **In turn, a caller is kept waiting** exactly if it signs in on a stream whose greeting never
comes. -/
theorem settleAll_gaveUp (c : Shared) {rs : List Request} {i : Nat} {r : Request}
    (h : rs[i]? = some r) :
    let before := (settleAll c (rs.take i)).2
    let start := max before.now before.free
    ((settleAll c rs).1[i]? = some .gaveUp ↔
      r.waits = true ∧ r ≠ .quit ∧ before.client.slot = none ∧ before.client.Stalls start) ∧
      (settleAll c (rs.take (i + 1))).2.free ≤
        before.client.heardAt start + 3 * Link.defaultTimeLimit := by
  intro before start
  obtain ⟨hending, hshared⟩ := settleAll_getElem c h
  obtain ⟨hresult, hnow⟩ := before.client.serve_returns start r
  rw [hending, hshared, Option.some.injEq, settle_gaveUp]
  exact ⟨hresult, hnow⟩

end Schedule

namespace Crowd

variable {each : List Ending} {last : Nat × Client} {rs : List Request} {s s' : Crowd}
  {p q : Request × Nat}

section Order

theorem move_moves (s : Crowd) (m : Move) : Moves s (s.move m) := by
  cases m with
  | enter =>
    simp only [move, enter]
    split
    · exact .quiet rfl rfl
    · next r i rest hunborn =>
      split
      · exact .quiet (by simp [left, hunborn]) rfl
      · next hidle =>
        have hleft : s.left = s.queue ++ (r, i) :: rest := by rw [left, hunborn]
        exact .answers hleft rfl (Or.inr (by simpa using hidle)) rfl
  | poll i =>
    simp only [move, poll]
    split
    · exact .quiet rfl rfl
    · next r j queue hqueue =>
      split
      · split
        · have hleft : s.left = [] ++ (r, j) :: (queue ++ s.unborn) := by rw [left, hqueue]; rfl
          exact .answers hleft rfl (Or.inl rfl) rfl
        · exact .quiet rfl rfl
      · exact .quiet rfl rfl

/-- Some of the callers, in their order, have increasing positions. -/
theorem positions_increase {ps : List (Request × Nat)} (h : ps.Sublist rs.zipIdx) :
    ps.Pairwise fun p q => p.2 < q.2 := by
  have hall : (rs.zipIdx.map Prod.snd).Pairwise (· < ·) := by
    rw [List.zipIdx_map_snd]
    exact List.pairwise_lt_range'
  exact (List.pairwise_map.1 hall).sublist h

theorem InLine.moves (h : InLine rs s) (hm : Moves s s') : InLine rs s' := by
  rcases hm with ⟨hleft, hresults⟩ | @⟨front, rest, p, result, hleft, hleft', hfront, hresults⟩
  · exact ⟨hleft ▸ h.order, hleft ▸ h.last, by rw [hleft, hresults]; exact h.unanswered⟩
  · obtain ⟨horder, hlast, hunanswered⟩ := h
    rw [hleft] at horder hlast hunanswered
    constructor
    case order =>
      rw [hleft']
      exact (List.Sublist.append (.refl front) (List.sublist_cons_self p rest)).trans horder
    case last =>
      rw [hleft']
      refine List.IsSuffix.trans ?_ hlast
      rcases hfront with rfl | hidle
      · exact (List.suffix_cons p rest).filter _
      · simp [hidle]
    case unanswered =>
      intro q hq
      rw [hleft'] at hq
      have hqp : q.2 ≠ p.2 := by
        have hpairs := positions_increase horder
        rw [List.pairwise_append, List.pairwise_cons] at hpairs
        obtain ⟨-, ⟨hrest, -⟩, hbefore⟩ := hpairs
        rcases List.mem_append.1 hq with hq | hq
        · exact Nat.ne_of_lt (hbefore q hq p List.mem_cons_self)
        · exact Nat.ne_of_gt (hrest q hq)
      rw [hresults, Function.update_of_ne hqp]
      exact hunanswered q (by simpa using (List.mem_append.1 hq).imp_right Or.inr)

/-- **Callers are answered in the order in which they began.** -/
theorem InLine.play (h : InLine rs s) (moves : List Move) : InLine rs (s.play moves) := by
  induction moves generalizing s with
  | nil => exact h
  | cons m moves ih => exact ih (h.moves (s.move_moves m))

theorem inLine_ofRequests (c : Shared) (rs : List Request) : InLine rs (ofRequests c rs) :=
  ⟨.refl _, List.suffix_refl _, fun _ _ => rfl⟩

/-- Behind a caller that has not returned nobody who needs the connection has. -/
theorem InLine.behind (h : InLine rs s) (hp : p ∈ s.left) (hwaits : p.1.waits = true)
    (hq : q ∈ rs.zipIdx) (hqwaits : q.1.waits = true) (hle : p.2 ≤ q.2) :
    s.results q.2 = none := by
  obtain ⟨gone, hgone⟩ := h.last
  have hpleft : p ∈ s.left.filter fun p => p.1.waits := List.mem_filter.2 ⟨hp, hwaits⟩
  have hqall : q ∈ rs.zipIdx.filter fun p => p.1.waits := List.mem_filter.2 ⟨hq, hqwaits⟩
  rw [← hgone] at hqall
  rcases List.mem_append.1 hqall with hqgone | hqleft
  · have hpairs := positions_increase (List.filter_sublist (p := fun p => p.1.waits) (l := rs.zipIdx))
    rw [← hgone] at hpairs
    have hlt := (List.pairwise_append.1 hpairs).2.2 q hqgone p hpleft
    omega
  · exact h.unanswered q (List.mem_filter.1 hqleft).1

end Order

section Returning

theorem InLine.getElem (h : InLine rs s) (hp : p ∈ s.left) : rs[p.2]? = some p.1 := by
  have hmem : (p.1, p.2) ∈ rs.zipIdx := h.order.subset hp
  exact List.mem_zipIdx_iff_getElem?.1 hmem

/-- A caller on course that has no result is one of those left. -/
theorem OnCourse.isLeft (h : OnCourse each last s) (hline : InLine rs s) {i : Nat} {r : Request}
    (hlength : each.length = rs.length) (hr : rs[i]? = some r) (hnone : s.results i = none) :
    (r, i) ∈ s.left := by
  have hi : i < each.length := by
    rw [hlength]
    exact (List.getElem?_eq_some_iff.1 hr).1
  obtain ⟨⟨r', j⟩, hp, rfl⟩ := List.mem_map.1 (h.missing i hi hnone)
  have hr' := hline.getElem hp
  rw [hr] at hr'
  cases hr'
  exact hp

/-- A caller that waits for good keeps everybody waiting who began later and needs the connection. -/
theorem OnCourse.blocked (h : OnCourse each last s) (hline : InLine rs s)
    (hlength : each.length = rs.length) {i j : Nat} {r r' : Request} (hj : each[j]? = some .gaveUp)
    (hr' : rs[j]? = some r') (hwaits' : r'.waits = true) (hle : j ≤ i) (hr : rs[i]? = some r)
    (hwaits : r.waits = true) : s.results i = none := by
  have hnone : s.results j = none := by
    rcases hresult : s.results j with _ | result
    · rfl
    · rw [h.known j result hresult] at hj
      cases hj
  exact hline.behind (h.isLeft hline hlength hr' hnone) hwaits'
    (List.mem_zipIdx_iff_getElem?.2 hr : (r, i) ∈ rs.zipIdx) hwaits hle

/-- A caller that needs no connection can return at any time. -/
theorem OnCourse.returns_idle (h : OnCourse each last s) (hline : InLine rs s)
    (hlength : each.length = rs.length) {i : Nat} {r : Request} (hr : rs[i]? = some r)
    (hidle : r.waits = false) : ∃ moves, ((s.play moves).results i).isSome = true := by
  obtain ⟨moves, hunborn⟩ := s.play_enter
  refine ⟨moves, Option.isSome_iff_ne_none.2 fun hnone => ?_⟩
  have hleft := (h.play moves).isLeft (hline.play moves) hlength hr hnone
  rw [left, hunborn, List.append_nil] at hleft
  rw [(h.play moves).waits _ hleft] at hidle
  cases hidle

/-- A caller with nobody before it that waits for good can return. -/
theorem OnCourse.returns_all (h : OnCourse each last s) (hline : InLine rs s)
    (hlength : each.length = rs.length) {i : Nat} {r : Request} (hr : rs[i]? = some r)
    (hall : ∀ j ≤ i, each[j]? ≠ some .gaveUp) :
    ∃ moves, ((s.play moves).results i).isSome = true := by
  -- All callers begin; then the first of the queue returns until this one has.
  obtain ⟨first, hfirst⟩ := s.play_enter
  have hdone : ∀ queue, ∀ s : Crowd, OnCourse each last s → InLine rs s → s.queue = queue →
      s.unborn = [] → ∃ moves, ((s.play moves).results i).isSome = true := by
    intro queue
    induction queue with
    | nil =>
      intro s hs hline hqueue hunborn
      refine ⟨[], Option.isSome_iff_ne_none.2 fun hnone => ?_⟩
      have hleft := hs.isLeft hline hlength hr hnone
      rw [left, hqueue, hunborn] at hleft
      cases hleft
    | cons p queue ih =>
      intro s hs hline hqueue hunborn
      rcases hnone : s.results i with _ | result
      · have hleft := hs.isLeft hline hlength hr hnone
        have hpairs := positions_increase hline.order
        rw [left, hqueue, hunborn, List.append_nil] at hleft hpairs
        have hle : p.2 ≤ i := by
          rcases List.mem_cons.1 hleft with rfl | hleft
          · exact Nat.le_refl i
          · exact Nat.le_of_lt ((List.pairwise_cons.1 hpairs).1 _ hleft)
        obtain ⟨moves, hmoves, hkeep⟩ := hs.returns hqueue (hall p.2 hle)
        obtain ⟨more, hmore⟩ := ih (s.play moves) (hs.play moves) (hline.play moves) hmoves
          (hkeep.trans hunborn)
        exact ⟨moves ++ more, by rwa [play_append]⟩
      · exact ⟨[], Option.isSome_iff_exists.2 ⟨result, hnone⟩⟩
  obtain ⟨more, hmore⟩ := hdone _ (s.play first) (h.play first) (hline.play first) rfl hfirst
  exact ⟨first ++ more, by rwa [play_append]⟩

/-- **A caller can return exactly if nobody up to it waits for good.** Callers begin in a given order and
are looked after in any; whatever has happened, one that needs no connection can return, and one that
needs it can exactly if in turn neither it nor anybody before it is kept waiting. In turn, a caller is
kept waiting exactly if it has to sign in on a stream whose greeting never comes, because the other side
has fallen silent; else it returns no later than three time limits after the greeting. The same holds of
signing in at the start. -/
theorem returns_unless_greeting_stalls (c : Shared) (rs : List Request) (moves : List Move) :
    let s := (ofRequests c rs).play moves
    let each := (Schedule.inTurn c rs).1
    (∀ i r, rs[i]? = some r →
      ((∃ more, ((s.play more).results i).isSome = true) ↔
        (r.waits = true → ∀ j ≤ i, each[j]? ≠ some .gaveUp))) ∧
    (∀ i r, rs[i]? = some r →
      let before := (Schedule.inTurn c (rs.take i)).2
      let start := max before.now before.free
      (each[i]? = some .gaveUp ↔
        r.waits = true ∧ r ≠ .quit ∧ before.client.slot = none ∧ before.client.Stalls start) ∧
      (Schedule.inTurn c (rs.take (i + 1))).2.free ≤
        before.client.heardAt start + 3 * Link.defaultTimeLimit) ∧
    (c.client.slot = none →
      ((c.client.connect none c.now).result = none ↔ c.client.Stalls c.now)) ∧
    ∀ l : Link, ∀ now, (l.greet none now).result = none → (l.greet none now).link.Mute := by
  intro s each
  have heach : each = (Schedule.settleAll c rs).1 := congrArg Prod.fst (Schedule.inTurn_eq c rs)
  have hlength : each.length = rs.length := by rw [heach, Schedule.settleAll_length]
  have hline : InLine rs s := (inLine_ofRequests c rs).play moves
  have hcourse : OnCourse each _ s := heach ▸ (onCourse_ofRequests c rs).play moves
  refine ⟨fun i r hr => ⟨fun ⟨more, hmore⟩ hwaits j hle hj => ?_, fun hall => ?_⟩,
    fun i r hr => ?_, fun hslot => ?_, fun l now => Link.greet_mute⟩
  · have hj' : j < rs.length := by
      rw [← hlength]
      exact (List.getElem?_eq_some_iff.1 hj).1
    have hr' : rs[j]? = some rs[j] := List.getElem?_eq_getElem hj'
    have hkept := (Schedule.settleAll_gaveUp c hr').1.1 (heach ▸ hj)
    have hnone := (hcourse.play more).blocked (hline.play more) hlength hj hr' hkept.1 hle hr hwaits
    rw [hnone] at hmore
    cases hmore
  · rcases hwaits : r.waits with _ | _
    · exact hcourse.returns_idle hline hlength hr hwaits
    · exact hcourse.returns_all hline hlength hr (hall hwaits)
  · rw [heach]
    simp only [Schedule.inTurn_eq]
    exact Schedule.settleAll_gaveUp c hr
  · have hstalls := (c.client.signIn_returns hslot c.now).1
    rw [← hstalls]
    unfold Client.connect
    rcases c.client.signIn none c.now with ⟨_ | f | l, now, c'⟩ <;> simp

/-- A session that ends after signing in, then one that opens and says nothing: the second heartbeat has
to sign in again and never returns, and the farewell after it never gets the connection. -/
theorem silent_stream_blocks_farewell :
    let accepted := "error id=0 msg=ok\n\r"
    let welcome := Utf8.encode ("TS3\n\rWelcome\n\r" ++ accepted ++ accepted).toList
    let first := (Client.fresh ⟨"serveradmin", "pw", "127.0.0.1", 10011, 1⟩
      [.ok ⟨[.data welcome, .finish], none⟩, .ok ⟨[], none⟩] .closed).connect none 0
    first.result = some (.ok ()) ∧ ∀ moves,
      let s := (ofRequests ⟨first.now, first.now, first.client⟩ [.ping, .ping, .quit]).play moves
      s.results 1 = none ∧ s.results 2 = none := by
  intro accepted welcome first
  refine ⟨by decide +kernel, fun moves => ?_⟩
  intro s
  let c : Shared := ⟨first.now, first.now, first.client⟩
  let rs : List Request := [.ping, .ping, .quit]
  have hcourse : OnCourse _ _ s := (onCourse_ofRequests c rs).play moves
  have hline : InLine rs s := (inLine_ofRequests c rs).play moves
  have hlength := Schedule.settleAll_length c rs
  have hkept : (Schedule.settleAll c rs).1[1]? = some .gaveUp := by
    rw [(Schedule.settleAll_getElem c (rfl : rs[1]? = some .ping)).1, Option.some.injEq,
      Schedule.settle_gaveUp, ← Option.isNone_iff_eq_none]
    decide +kernel
  have hblocked : ∀ i r, 1 ≤ i → rs[i]? = some r → r.waits = true → s.results i = none :=
    fun i r hle hr hwaits => hcourse.blocked hline hlength hkept rfl rfl hle hr hwaits
  exact ⟨hblocked 1 .ping (Nat.le_refl 1) rfl rfl, hblocked 2 .quit (by decide) rfl rfl⟩

end Returning

end Crowd

end VoiceRelay
