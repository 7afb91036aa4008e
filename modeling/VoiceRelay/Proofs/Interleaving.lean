import VoiceRelay.Proofs.CallSteps
import VoiceRelay.Proofs.InTurn

/-!
# Callers that are looked after in any order

Callers that share the connection begin in a given order and are then looked after in whatever order it
happens to be, again and again: one that waits for the connection stays where it is, and one that has
it goes on to the next point at which it pauses. Whatever the order, what becomes of them is what
becomes of them in turn.

**Design.** In a `Crowd` the first of the queue has the connection; whoever returns hands it to the
next. `Owes` says what is still to come if the callers left are served one after the other, and
`OnCourse` that this, with what has come already, is what comes to them in turn.

**Results.**

- `OnCourse.enter`, `OnCourse.poll`, `OnCourse.play`: every move keeps to the course, so every run does.
- `OnCourse.settles`: if no caller waits for good, all of them can still be brought to their end.
- `interleavings_linearise`: in every order, the callers come to what they come to in turn.
-/

namespace VoiceRelay

section Defs

/-- Callers with one request each, with their positions: those who wait for the connection, of whom the
first has it, and those who have not begun. -/
structure Crowd where
  juncture : Juncture
  queue : List (Request × Nat)
  unborn : List (Request × Nat)
  results : Nat → Option (Except Fault Answer)

namespace Crowd

/-- What can happen next: the next caller begins, or one is looked after. -/
inductive Move
  | enter
  | poll (i : Nat)

/-- Notes that a caller has returned. -/
def answer (s : Crowd) (i : Nat) (result : Except Fault Answer) : Crowd :=
  { s with results := Function.update s.results i (some result) }

/-- The next caller begins: it joins the queue, or returns at once if it needs no connection. -/
def enter (s : Crowd) : Crowd :=
  match s.unborn with
  | [] => s
  | (r, i) :: rest =>
    if r.waits then { s with queue := s.queue ++ [(r, i)], unborn := rest }
    else { s.answer i (.ok .done) with unborn := rest }

/-- A caller is looked after. It goes on if it has the connection, and hands it on when it returns. -/
def poll (s : Crowd) (i : Nat) : Crowd :=
  match s.queue with
  | [] => s
  | (r, j) :: queue =>
    if i = j then
      match s.juncture with
      | ⟨.returning result, now, c⟩ =>
        { s.answer j result with juncture := ⟨.taking, now, c⟩, queue := queue }
      | m => { s with juncture := m.advance r }
    else s

/-- The crowd after a move. -/
def move (s : Crowd) : Move → Crowd
  | .enter => s.enter
  | .poll i => s.poll i

/-- A run. -/
def play (s : Crowd) (moves : List Move) : Crowd := moves.foldl move s

/-- Callers none of whom has begun, from the moment at which the connection is free. -/
def ofRequests (c : Shared) (rs : List Request) : Crowd :=
  ⟨⟨.taking, max c.now c.free, c.client⟩, [], rs.zipIdx, fun _ => none⟩

/-- Every caller has returned. -/
def Settled (s : Crowd) : Prop := s.queue = [] ∧ s.unborn = []

/-- What the first `n` callers have come to. -/
def endings (s : Crowd) (n : Nat) : List Ending :=
  (List.range n).map fun i => Schedule.endingOf (s.results i)

/-- Served one after the other, the callers left come to their part of `each`, and then the time and
the client are those of `last`. -/
def Owes (each : List Ending) (last : Nat × Client) : Nat → Client → List (Request × Nat) → Prop
  | now, c, [] => (now, c) = last
  | now, c, (r, i) :: rest =>
    let call := c.serve none now r
    each[i]? = some (Schedule.endingOf call.result) ∧ Owes each last call.now call.client rest

/-- The first of the queue is on its way from the moment at which it got the connection. -/
def Since (s : Crowd) (now : Nat) (c : Client) : Prop :=
  match s.queue with
  | [] => s.juncture = ⟨.taking, now, c⟩
  | (r, _) :: _ => Juncture.Leads r ⟨.taking, now, c⟩ s.juncture

/-- What has come to the callers and what is still to come is what comes to them in turn. -/
structure OnCourse (each : List Ending) (last : Nat × Client) (s : Crowd) : Prop where
  known : ∀ i result, s.results i = some result → each[i]? = some (.answered result)
  waits : ∀ p ∈ s.queue, p.1.waits = true
  ahead : ∃ now c, s.Since now c ∧ Owes each last now c (s.queue ++ s.unborn)
  missing : ∀ i < each.length, s.results i = none → i ∈ (s.queue ++ s.unborn).map Prod.snd

end Crowd

end Defs

namespace Crowd

variable {each : List Ending} {last : Nat × Client} {s : Crowd}

section Owing

/-- A caller whose request needs no connection owes the same wherever it stands. -/
theorem Owes.skip {r : Request} (hr : r.waits = false) {i now : Nat} {c : Client}
    {queue rest : List (Request × Nat)} (h : Owes each last now c (queue ++ (r, i) :: rest)) :
    each[i]? = some (.answered (.ok .done)) ∧ Owes each last now c (queue ++ rest) := by
  induction queue generalizing now c with
  | nil => simpa [Owes, Schedule.serve_not_waits hr, Schedule.endingOf] using h
  | cons p queue ih =>
    obtain ⟨r', j⟩ := p
    obtain ⟨hj, hrest⟩ := h
    obtain ⟨hi, hqueue⟩ := ih hrest
    exact ⟨hi, hj, hqueue⟩

/-- What comes to callers in turn is what they owe before any of them has begun. -/
theorem owes_settleAll (c : Shared) (rs : List Request) (front : List Ending) :
    let all := Schedule.settleAll c rs
    Owes (front ++ all.1) (max all.2.now all.2.free, all.2.client) (max c.now c.free) c.client
      (rs.zipIdx front.length) := by
  induction rs generalizing c front with
  | nil => rfl
  | cons r rs ih =>
    have hnow : max (Schedule.settle c r).2.now (Schedule.settle c r).2.free =
        (c.client.serve none (max c.now c.free) r).now := by
      unfold Schedule.settle
      simp only
      split
      · exact Nat.max_self _
      · have hpatient : Deadline.before none (max c.now c.free) = false := rfl
        have hlater := (c.client.serve_later r hpatient).le
        exact Nat.max_eq_right (Nat.le_trans (Nat.le_max_left ..) hlater)
    have hrest := ih (Schedule.settle c r).2 (front ++ [(Schedule.settle c r).1])
    rw [hnow] at hrest
    refine ⟨?_, ?_⟩
    · simp [Schedule.settleAll, Schedule.settle]
    · have hclient : (Schedule.settle c r).2.client =
          (c.client.serve none (max c.now c.free) r).client := rfl
      rw [hclient] at hrest
      simpa [Schedule.settleAll] using hrest

end Owing

section Course

theorem answer_some (s : Crowd) (i : Nat) (result : Except Fault Answer) {j : Nat}
    {x : Except Fault Answer} (h : (s.answer i result).results j = some x) :
    j = i ∧ x = result ∨ s.results j = some x := by
  simp only [answer] at h
  by_cases hij : j = i
  · subst hij
    rw [Function.update_self] at h
    exact Or.inl ⟨rfl, (Option.some.inj h).symm⟩
  · rw [Function.update_of_ne hij] at h
    exact Or.inr h

theorem answer_none (s : Crowd) (i : Nat) (result : Except Fault Answer) {j : Nat}
    (h : (s.answer i result).results j = none) : j ≠ i ∧ s.results j = none := by
  simp only [answer] at h
  by_cases hij : j = i
  · subst hij
    rw [Function.update_self] at h
    cases h
  · rw [Function.update_of_ne hij] at h
    exact ⟨hij, h⟩

/-- The next in the queue gets the connection from the one before it. -/
theorem since_taking {s : Crowd} {now : Nat} {c : Client}
    (h : s.juncture = ⟨.taking, now, c⟩) : s.Since now c := by
  unfold Since
  split
  · exact h
  · rw [h]
    exact .refl _ _

theorem since_append {s : Crowd} {now : Nat} {c : Client} (h : s.Since now c)
    (more : List (Request × Nat)) : { s with queue := s.queue ++ more }.Since now c := by
  rcases hqueue : s.queue with _ | ⟨p, queue⟩
  · unfold Since at h
    rw [hqueue] at h
    exact since_taking h
  · unfold Since at h ⊢
    rw [hqueue] at h
    simpa [hqueue] using h

/-- Noting the result of one caller, who is not missing any more. -/
theorem OnCourse.answer (h : OnCourse each last s) {i : Nat} {result : Except Fault Answer}
    (hi : each[i]? = some (.answered result)) {s' : Crowd}
    (hresults : s'.results = (s.answer i result).results)
    (hleft : ∀ j ∈ (s.queue ++ s.unborn).map Prod.snd,
      j = i ∨ j ∈ (s'.queue ++ s'.unborn).map Prod.snd)
    (hwaits : ∀ p ∈ s'.queue, p.1.waits = true)
    (hahead : ∃ now c, s'.Since now c ∧ Owes each last now c (s'.queue ++ s'.unborn)) :
    OnCourse each last s' where
  known j x hj := by
    rw [hresults] at hj
    obtain ⟨rfl, rfl⟩ | hj := answer_some s i result hj
    · exact hi
    · exact h.known j x hj
  waits := hwaits
  ahead := hahead
  missing j hj hnone := by
    rw [hresults] at hnone
    obtain ⟨hij, hnone⟩ := answer_none s i result hnone
    exact (hleft j (h.missing j hj hnone)).resolve_left hij

theorem OnCourse.enter (h : OnCourse each last s) : OnCourse each last s.enter := by
  unfold Crowd.enter
  split
  · exact h
  · next r i rest hunborn =>
    obtain ⟨now, c, hsince, howes⟩ := h.ahead
    have hmissing := h.missing
    rw [hunborn] at howes hmissing
    split
    · next hr =>
      have hwaits : ∀ p ∈ s.queue ++ [(r, i)], p.1.waits = true := by
        intro p hp
        rcases List.mem_append.1 hp with hp | hp
        · exact h.waits p hp
        · rw [List.mem_singleton.1 hp]
          exact hr
      exact ⟨h.known, hwaits, ⟨now, c, since_append hsince [(r, i)], by simpa using howes⟩,
        by simpa using hmissing⟩
    · next hr =>
      obtain ⟨hi, hrest⟩ := howes.skip (by simpa using hr)
      refine h.answer hi rfl (fun j hj => ?_) h.waits ⟨now, c, hsince, hrest⟩
      rw [hunborn] at hj
      simp only [Crowd.answer, List.map_append, List.map_cons, List.mem_append,
        List.mem_cons] at hj ⊢
      tauto

theorem OnCourse.poll (h : OnCourse each last s) (i : Nat) : OnCourse each last (s.poll i) := by
  unfold Crowd.poll
  split
  · exact h
  · next r j queue hqueue =>
    split
    · obtain ⟨now, c, hsince, howes⟩ := h.ahead
      unfold Since at hsince
      rw [hqueue] at hsince howes
      obtain ⟨hj, hrest⟩ := howes
      have hr : r.waits = true := h.waits (r, j) (by simp [hqueue])
      split
      · next result now' c' hm =>
        -- The caller returns with what serving its request comes to, and the next one is on its way.
        rw [hm] at hsince
        have hserve := (Juncture.taking_comes hr c now).result_eq hsince
        rw [hserve] at hj hrest
        refine h.answer hj rfl (fun k hk => ?_) (fun p hp => h.waits p (by simp [hqueue, hp]))
          ⟨now', c', since_taking rfl, hrest⟩
        rw [hqueue] at hk
        simpa [Crowd.answer] using hk
      · refine ⟨h.known, h.waits, ⟨now, c, ?_, ?_⟩, h.missing⟩
        · unfold Since
          simp only [hqueue]
          exact hsince.trans (.step r s.juncture)
        · simp only [hqueue]
          exact ⟨hj, hrest⟩
    · exact h

theorem OnCourse.move (h : OnCourse each last s) (m : Move) : OnCourse each last (s.move m) := by
  cases m with
  | enter => exact h.enter
  | poll i => exact h.poll i

/-- **Every run keeps to the course.** -/
theorem OnCourse.play (h : OnCourse each last s) (moves : List Move) :
    OnCourse each last (s.play moves) := by
  induction moves generalizing s with
  | nil => exact h
  | cons m moves ih => exact ih (h.move m)

/-- Callers none of whom has begun are on course. -/
theorem onCourse_ofRequests (c : Shared) (rs : List Request) :
    let all := Schedule.settleAll c rs
    OnCourse all.1 (max all.2.now all.2.free, all.2.client) (ofRequests c rs) where
  known _ _ h := by cases h
  waits _ h := by cases h
  ahead := ⟨max c.now c.free, c.client, rfl, owes_settleAll c rs []⟩
  missing i hi _ := by
    have hlt : i < rs.length := by rwa [← Schedule.settleAll_length c rs]
    simpa [ofRequests] using hlt

end Course

section Settling

theorem play_append (s : Crowd) (moves more : List Move) :
    s.play (moves ++ more) = (s.play moves).play more := List.foldl_append

/-- Every caller can begin. -/
theorem play_enter (s : Crowd) : ∃ moves, (s.play moves).unborn = [] := by
  generalize hn : s.unborn.length = n
  induction n generalizing s with
  | zero => exact ⟨[], List.length_eq_zero_iff.1 hn⟩
  | succ n ih =>
    have htail : (s.move .enter).unborn = s.unborn.tail := by
      simp only [move, enter]
      split
      · next h => simp [h]
      · next h =>
        rw [h]
        split <;> rfl
    obtain ⟨moves, hmoves⟩ := ih (s.move .enter) (by rw [htail]; simp [hn])
    exact ⟨.enter :: moves, hmoves⟩

/-- A caller that is some steps away from its result returns. -/
theorem play_poll {r : Request} {i : Nat} {queue : List (Request × Nat)}
    {result : Except Fault Answer} {now : Nat} {c : Client} (hqueue : s.queue = (r, i) :: queue)
    (h : Juncture.Leads r s.juncture ⟨.returning result, now, c⟩) :
    ∃ moves, (s.play moves).queue = queue ∧ (s.play moves).unborn = s.unborn := by
  obtain ⟨n, hn⟩ := h
  -- The caller may have its result before the `n` steps are over: then it returns at once.
  induction n generalizing s with
  | zero =>
    refine ⟨[.poll i], ?_⟩
    have hm : s.juncture = ⟨.returning result, now, c⟩ := hn
    simp [play, move, poll, hqueue, hm, answer]
  | succ n ih =>
    by_cases hreturn : ∃ x now' c', s.juncture = ⟨.returning x, now', c'⟩
    · obtain ⟨x, now', c', hm⟩ := hreturn
      refine ⟨[.poll i], ?_⟩
      simp [play, move, poll, hqueue, hm, answer]
    · have hpoll : s.move (.poll i) = { s with juncture := s.juncture.advance r } := by
        simp only [move, poll, hqueue, if_true]
        split
        · next x now' c' hm => exact absurd ⟨x, now', c', hm⟩ hreturn
        · rfl
      obtain ⟨moves, hmoves⟩ := ih (s := s.move (.poll i)) (by rw [hpoll]; exact hqueue)
        (by rw [hpoll]; exact hn)
      rw [hpoll] at hmoves
      exact ⟨.poll i :: moves, by simpa [play, hpoll] using hmoves⟩

/-- The first of the queue returns, if it does not wait for good. -/
theorem OnCourse.returns (h : OnCourse each last s) {p : Request × Nat}
    {queue : List (Request × Nat)} (hqueue : s.queue = p :: queue)
    (hp : each[p.2]? ≠ some .gaveUp) :
    ∃ moves, (s.play moves).queue = queue ∧ (s.play moves).unborn = s.unborn := by
  obtain ⟨r, i⟩ := p
  obtain ⟨now, c, hsince, howes⟩ := h.ahead
  unfold Since at hsince
  rw [hqueue] at hsince howes
  obtain ⟨hi, -⟩ := howes
  have hr : r.waits = true := h.waits (r, i) (by simp [hqueue])
  have hcomes := Juncture.taking_comes hr c now
  generalize c.serve none now r = call at *
  obtain ⟨_ | result, now', c'⟩ := call
  · exact absurd hi hp
  · rcases Juncture.Leads.join hsince hcomes with hlead | hlead
    · exact play_poll hqueue hlead
    · have hm := hlead.eq_of_still (Juncture.advance_returning ..)
      exact play_poll hqueue (by rw [hm]; exact .refl r _)

/-- **If no caller waits for good, all of them can still be brought to their end.** -/
theorem OnCourse.settles (h : OnCourse each last s) (hall : ∀ e ∈ each, e ≠ .gaveUp) :
    ∃ moves, (s.play moves).Settled := by
  -- All callers begin; then the first of the queue returns until there is none.
  obtain ⟨first, hfirst⟩ := s.play_enter
  have hdone : ∀ queue, ∀ s : Crowd, OnCourse each last s → s.queue = queue → s.unborn = [] →
      ∃ moves, (s.play moves).Settled := by
    intro queue
    induction queue with
    | nil => exact fun s _ hqueue hunborn => ⟨[], hqueue, hunborn⟩
    | cons p queue ih =>
      intro s hs hqueue hunborn
      have hp : each[p.2]? ≠ some .gaveUp := fun hgave => hall _ (List.mem_of_getElem? hgave) rfl
      obtain ⟨moves, hmoves, hkeep⟩ := hs.returns hqueue hp
      obtain ⟨more, hmore⟩ := ih (s.play moves) (hs.play moves) hmoves (hkeep.trans hunborn)
      exact ⟨moves ++ more, by rwa [play_append]⟩
  obtain ⟨more, hmore⟩ := hdone _ (s.play first) (h.play first) rfl hfirst
  exact ⟨first ++ more, by rwa [play_append]⟩

/-- Callers that have all returned came to what they come to in turn. -/
theorem OnCourse.settled (h : OnCourse each last s) (hs : s.Settled) :
    s.endings each.length = each ∧ (s.juncture.now, s.juncture.client) = last := by
  obtain ⟨hqueue, hunborn⟩ := hs
  have hmissing := h.missing
  obtain ⟨now, c, hsince, howes⟩ := h.ahead
  unfold Since at hsince
  rw [hqueue] at hsince
  rw [hqueue, hunborn] at howes hmissing
  refine ⟨List.ext_getElem? fun i => ?_, by rw [hsince]; exact howes⟩
  rcases Nat.lt_or_ge i each.length with hi | hi
  · rcases hresult : s.results i with _ | result
    · exact absurd (hmissing i hi hresult) (by simp)
    · rw [h.known i result hresult]
      simp [endings, hi, hresult, Schedule.endingOf]
  · simp [endings, hi]

end Settling

section Interleavings

/-- **Callers that share the connection come to what they come to in turn, however they are looked
after.** They begin in a given order, together or one by one; between any two steps of one of them, any
others may be looked after. Whoever has returned has the result it has in turn. When all have returned,
there were as many attempts to open a stream as in turn and every session carried the same octets; the
client and the time are the same, too. If nobody waits for good in turn, nobody does here. And callers
that begin together and are run until nothing is left to do are one case of this. -/
theorem interleavings_linearise (c : Shared) (rs : List Request) (moves : List Move) :
    let s := (ofRequests c rs).play moves
    let each := Schedule.inTurn c rs
    let all := Schedule.together c (rs.map Schedule.asking)
    (∀ i result, s.results i = some result → each.1[i]? = some (.answered result)) ∧
      (s.Settled → s.endings rs.length = each.1 ∧
        s.juncture.client.dialled = each.2.client.dialled ∧
        s.juncture.client.links.map Link.sentOctets = each.2.client.links.map Link.sentOctets ∧
        s.juncture.client = each.2.client ∧ s.juncture.now = max each.2.now each.2.free) ∧
      ((∀ e ∈ each.1, e ≠ .gaveUp) → ∃ more, (s.play more).Settled) ∧
      all.1 = each.1 ∧ all.2.client = each.2.client := by
  intro s each all
  have hcourse : OnCourse each.1 (max each.2.now each.2.free, each.2.client) s := by
    have hstart := onCourse_ofRequests c rs
    rw [← Schedule.inTurn_eq] at hstart
    exact hstart.play moves
  have hlength : each.1.length = rs.length := by
    rw [show each = Schedule.settleAll c rs from Schedule.inTurn_eq c rs,
      Schedule.settleAll_length]
  obtain ⟨hends, -, -, hclient, -⟩ := Schedule.together_linearises c rs
  refine ⟨hcourse.known, fun hs => ?_, hcourse.settles, hends, hclient⟩
  obtain ⟨hall, hlast⟩ := hcourse.settled hs
  obtain ⟨hnow, hc⟩ := Prod.ext_iff.1 hlast
  simp only at hnow hc
  rw [hlength] at hall
  exact ⟨hall, by rw [hc], by rw [hc], hc, hnow⟩

/-- Three callers, of whom the second has no word to say. The third is looked after in vain until the
first has returned. -/
example :
    let line (text : String) : Step := .data (Utf8.encode text.toList ++ Line.delimiter)
    let l : Link := .ofPeer
      ⟨[.awaitLines 1, line "error id=0 msg=ok", .awaitLines 2, line "error id=3 msg=no"], none⟩
    let c : Client :=
      { Client.fresh ⟨"u", "p", "h", 1, 1⟩ [] .closed with slot := some l }
    let s := (ofRequests ⟨0, 0, c⟩ [.say "a", .say " ", .ping]).play
      [.enter, .poll 0, .enter, .enter, .poll 2, .poll 0, .poll 0, .poll 2, .poll 0, .poll 2,
        .poll 2, .poll 2, .poll 2]
    s.queue.length = 0 ∧ s.results 0 = some (.ok .done) ∧ s.results 1 = some (.ok .done) ∧
      s.results 2 = some (.error (.refusal 3 "no")) := by
  decide +kernel

end Interleavings

end Crowd

end VoiceRelay
