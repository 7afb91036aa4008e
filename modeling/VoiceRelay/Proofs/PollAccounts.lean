import VoiceRelay.Query.Poller

/-!
# The accounts of a poller

Polls succeed, fail at the first question or at the second, the hub is closed and the signal to stop comes,
each at any moment. After every poll the accounts can be told from the answers so far and the moments at
which the polls ended, and a run ends for one of two reasons only: a poll ended after the hub was closed,
whatever it gave, or the signal came before the next one.

**Design.** `Poller.rooms?` is what a poll brings, read off its two answers. `Poller.tallied` are the
accounts after some polls, by counting; `Poller.Outcome` says of a run how many polls it makes and why it
ends. A run keeps both from poll to poll.

**Results.**

- `roster_eq`, `enter_tallied`: what one poll does to the accounts.
- `rounds_tallied`, `rounds_outcome`: the accounts of a run, and its end.
- `accounts_and_end`: both for every run.
-/

namespace VoiceRelay

namespace Poller

section Defs

/-- The rooms that a poll brings, if it got both lists. -/
def rooms? (hidden : List Nat) (p : Poll) : Option (List Room) :=
  match p.clients, p.channels with
  | .ok clients, .ok channels => some (Roster.join clients channels hidden)
  | _, _ => none

/-- When the `k`-th poll begins, if the run goes on until then. -/
def begins (p : Polling) : Nat → Nat
  | 0 => 0
  | k + 1 => begins p k + (p.polls k).length + p.interval

/-- When the `k`-th poll ends. -/
def endsAt (p : Polling) (k : Nat) : Nat := begins p k + (p.polls k).length

/-- Whether the `k`-th poll got both lists. -/
def succeeds (p : Polling) (k : Nat) : Bool := (rooms? p.hidden (p.polls k)).isSome

/-- What the hub receives of the `k`-th poll: its rooms, unless the hub was closed when it ended. -/
def received? (p : Polling) (k : Nat) : Option (List Room) :=
  if takes p (endsAt p k) then rooms? p.hidden (p.polls k) else none

/-- The accounts after the first `n` polls. -/
def tallied (p : Polling) (n : Nat) : PollAccount where
  rosters := ((List.range n).filterMap (received? p)).reverse
  good := (List.range n).countP (succeeds p)
  bad := (List.range n).countP (fun k => !succeeds p k)
  connected :=
    match n with
    | 0 => true
    | k + 1 => succeeds p k

/-- How many polls a run makes that begins with the `k`-th and makes `n` at most, and what ends it. -/
inductive Outcome (p : Polling) : (n k count : Nat) → Option End → Prop
  | unended {k : Nat} : Outcome p 0 k 0 none
  | closed {n k : Nat} : takes p (endsAt p k) = false → Outcome p (n + 1) k 1 (some .hubClosed)
  | signalled {n k : Nat} : takes p (endsAt p k) = true → stops p k (endsAt p k) = true →
      Outcome p (n + 1) k 1 (some .signal)
  | onward {n k count : Nat} {ending : Option End} : takes p (endsAt p k) = true →
      stops p k (endsAt p k) = false → Outcome p n (k + 1) count ending →
      Outcome p (n + 1) k (count + 1) ending

end Defs

section Polls

variable {p : Polling}

theorem roster_eq (hidden : List Nat) (poll : Poll) :
    (∃ rooms, roster hidden poll = .ok rooms ∧ rooms? hidden poll = some rooms) ∨
      ((∃ f, roster hidden poll = .error f) ∧ rooms? hidden poll = none) := by
  unfold roster rooms?
  rcases hclients : poll.clients with f | clients
  · exact Or.inr ⟨⟨f, rfl⟩, rfl⟩
  · rcases hchannels : poll.channels with f | channels
    · exact Or.inr ⟨⟨f, rfl⟩, rfl⟩
    · exact Or.inl ⟨_, rfl, rfl⟩

/-- **One poll** is entered by what it brings and by whether the hub is still open when it ends. -/
theorem enter_tallied (p : Polling) (k : Nat) :
    enter p.hidden (takes p (endsAt p k)) (tallied p k) (p.polls k) =
      (tallied p (k + 1), takes p (endsAt p k)) := by
  unfold enter tallied
  rw [List.range_succ, List.filterMap_append, List.countP_append, List.countP_append]
  rcases roster_eq p.hidden (p.polls k) with ⟨rooms, hroster, hrooms⟩ | ⟨⟨f, hroster⟩, hrooms⟩
  · have hsucceeds : succeeds p k = true := by rw [succeeds, hrooms]; rfl
    rcases htakes : takes p (endsAt p k) with _ | _ <;>
      simp [hroster, received?, hrooms, hsucceeds, htakes]
  · have hfails : succeeds p k = false := by rw [succeeds, hrooms]; rfl
    simp [hroster, received?, hrooms, hfails]

/-- The signal ends a pause if it is noticed before the end of the pause, or at this very moment. -/
theorem stops_cases (p : Polling) (k now : Nat) :
    (stops p k now = true → ∃ t, p.stopAt = some t ∧ max t now ≤ now + p.interval) ∧
      (stops p k now = false → ∀ t, p.stopAt = some t → now + p.interval ≤ max t now) := by
  unfold stops
  rcases p.stopAt with _ | t
  · simp
  · simp only [Bool.or_eq_true, Bool.or_eq_false_iff, Bool.and_eq_true, decide_eq_true_eq,
      decide_eq_false_iff_not, beq_iff_eq, Option.some.injEq]
    exact ⟨fun h => ⟨t, rfl, by omega⟩, fun h u hu => by omega⟩

end Polls

section Runs

variable {p : Polling} {n k count : Nat} {ending : Option End}

/-- One more poll of a run. -/
theorem rounds_succ (p : Polling) (n k : Nat) :
    rounds p (n + 1) k (begins p k) (tallied p k) =
      if takes p (endsAt p k) = false then ([tallied p (k + 1)], some .hubClosed)
      else if stops p k (endsAt p k) then ([tallied p (k + 1)], some .signal)
      else
        let rest := rounds p n (k + 1) (begins p (k + 1)) (tallied p (k + 1))
        (tallied p (k + 1) :: rest.1, rest.2) := by
  have henter := enter_tallied p k
  unfold endsAt at henter
  rw [rounds, henter]
  rfl

/-- **The accounts of a run** are those after its first polls. -/
theorem rounds_tallied (p : Polling) (n k : Nat) :
    ∀ (j : Nat) (x : PollAccount),
      (rounds p n k (begins p k) (tallied p k)).1[j]? = some x → x = tallied p (k + j + 1) := by
  induction n generalizing k with
  | zero => simp [rounds]
  | succ n ih =>
    intro j x hx
    have hfirst : ([tallied p (k + 1)] : List PollAccount)[j]? = some x →
        x = tallied p (k + j + 1) := by
      cases j with
      | zero => exact fun h => (Option.some.inj h).symm
      | succ j => simp
    rw [rounds_succ] at hx
    split at hx
    · exact hfirst hx
    · split at hx
      · exact hfirst hx
      · cases j with
        | zero => exact (Option.some.inj hx).symm
        | succ j =>
          rw [ih (k + 1) j x hx, Nat.add_right_comm k 1 j]
          rfl

/-- **The end of a run** and how many polls it makes until then. -/
theorem rounds_outcome (p : Polling) (n k : Nat) :
    let r := rounds p n k (begins p k) (tallied p k)
    Outcome p n k r.1.length r.2 := by
  induction n generalizing k with
  | zero => exact .unended
  | succ n ih =>
    rw [rounds_succ]
    rcases htakes : takes p (endsAt p k) with _ | _
    · exact .closed htakes
    · rcases hstops : stops p k (endsAt p k) with _ | _
      · exact .onward htakes hstops (ih (k + 1))
      · exact .signalled htakes hstops

theorem Outcome.count_le (h : Outcome p n k count ending) : count ≤ n := by
  induction h with
  | unended => exact Nat.le_refl 0
  | closed | signalled => exact Nat.succ_le_succ (Nat.zero_le _)
  | onward _ _ _ ih => exact Nat.succ_le_succ ih

/-- After every poll but the last of a run, and after the last if nothing has ended the run, the hub takes
rosters and the signal does not end the pause. -/
theorem Outcome.goes_on (h : Outcome p n k count ending) :
    ∀ j, (j + 1 < count ∨ ending = none ∧ j < count) →
      takes p (endsAt p (k + j)) = true ∧ stops p (k + j) (endsAt p (k + j)) = false := by
  induction h with
  | unended | closed | signalled => simp
  | onward htakes hstops _ ih =>
    intro j hj
    cases j with
    | zero => exact ⟨htakes, hstops⟩
    | succ j =>
      have hrest := ih j (hj.imp Nat.lt_of_succ_lt_succ fun h => ⟨h.1, Nat.lt_of_succ_lt_succ h.2⟩)
      rwa [Nat.add_right_comm] at hrest

/-- The last poll of a run that has ended. -/
theorem Outcome.ends (h : Outcome p n k count ending) :
    (ending = none → count = n) ∧
      (ending = some .hubClosed → ∃ j, count = j + 1 ∧ takes p (endsAt p (k + j)) = false) ∧
      (ending = some .signal → ∃ j, count = j + 1 ∧ takes p (endsAt p (k + j)) = true ∧
        stops p (k + j) (endsAt p (k + j)) = true) := by
  induction h with
  | unended => simp
  | closed htakes => exact ⟨by simp, fun _ => ⟨0, rfl, htakes⟩, by simp⟩
  | signalled htakes hstops => exact ⟨by simp, by simp, fun _ => ⟨0, rfl, htakes, hstops⟩⟩
  | @onward n k count ending _ _ _ ih =>
    obtain ⟨hnone, hclosed, hsignal⟩ := ih
    have hshift (j : Nat) : k + (j + 1) = k + 1 + j := Nat.add_right_comm k j 1
    refine ⟨fun h => congrArg Nat.succ (hnone h), fun h => ?_, fun h => ?_⟩
    · obtain ⟨j, rfl, htakes⟩ := hclosed h
      exact ⟨j + 1, rfl, by rwa [hshift]⟩
    · obtain ⟨j, rfl, htakes, hstops⟩ := hsignal h
      exact ⟨j + 1, rfl, by rw [hshift]; exact ⟨htakes, hstops⟩⟩

/-- **The accounts of every run and its end.** Whatever the polls give, however long they last, whenever
the hub is closed and the signal comes: after each poll the hub has received, in order and one each, the
rosters of those polls so far that got both lists and ended before the hub was closed; a poll counts as
good exactly if it got both lists, else as bad, so the two add up to the number of polls; and the query
interface counts as connected exactly if the last poll succeeded. A run ends with the first poll that ends
after the hub was closed, whether it succeeded or not, or because the signal has come by the time at which
the next poll would begin. Nothing else ends it. -/
theorem accounts_and_end (p : Polling) (n : Nat) :
    let r := run p n
    let count := r.1.length
    (∀ k x, r.1[k]? = some x →
      x.rosters.reverse = (List.range (k + 1)).filterMap (received? p) ∧
      x.good = (List.range (k + 1)).countP (succeeds p) ∧
      x.bad = (List.range (k + 1)).countP (fun j => !succeeds p j) ∧
      x.good + x.bad = k + 1 ∧ x.connected = succeeds p k) ∧
    count ≤ n ∧
    (∀ k, (k + 1 < count ∨ r.2 = none ∧ k < count) → takes p (endsAt p k) = true ∧
      ∀ t, p.stopAt = some t → begins p (k + 1) ≤ max t (endsAt p k)) ∧
    (r.2 = none → count = n) ∧
    (r.2 = some .hubClosed ↔ ∃ k, count = k + 1 ∧ takes p (endsAt p k) = false) ∧
    (r.2 = some .signal → ∃ k t, count = k + 1 ∧ takes p (endsAt p k) = true ∧
      p.stopAt = some t ∧ max t (endsAt p k) ≤ begins p (k + 1)) := by
  intro r count
  have houtcome : Outcome p n 0 count r.2 := rounds_outcome p n 0
  have hgoes := houtcome.goes_on
  obtain ⟨hnone, hclosed, hsignal⟩ := houtcome.ends
  simp only [Nat.zero_add] at hgoes hclosed hsignal
  refine ⟨fun k x hx => ?_, houtcome.count_le, fun k hk => ?_, hnone, ⟨hclosed, ?_⟩, fun h => ?_⟩
  · have hsum := List.length_eq_countP_add_countP (succeeds p) (l := List.range (k + 1))
    rw [List.length_range] at hsum
    obtain rfl := rounds_tallied p n 0 k x hx
    rw [Nat.zero_add]
    exact ⟨List.reverse_reverse _, rfl, rfl, by simpa [tallied] using hsum.symm, rfl⟩
  · obtain ⟨htakes, hstops⟩ := hgoes k hk
    exact ⟨htakes, (stops_cases p k (endsAt p k)).2 hstops⟩
  · -- A poll that ends after the hub was closed is followed by no other and by no pause.
    rintro ⟨k, hcount, hshut⟩
    rcases hending : r.2 with _ | _ | _
    · have htakes := (hgoes k (Or.inr ⟨hending, by omega⟩)).1
      simp [hshut] at htakes
    · rfl
    · obtain ⟨j, hj, htakes, -⟩ := hsignal hending
      obtain rfl : j = k := by omega
      simp [hshut] at htakes
  · obtain ⟨k, hcount, htakes, hstops⟩ := hsignal h
    obtain ⟨t, hstop, hle⟩ := (stops_cases p k (endsAt p k)).1 hstops
    exact ⟨k, t, hcount, htakes, hstop, hle⟩

/-- Three polls of different kinds; the hub is closed during the last of them, which fails. -/
example :
    let anna : Poll := ⟨.ok [⟨3, "Anna", 1, 0⟩], .ok [⟨1, "Lobby"⟩], 20⟩
    let half : Poll := ⟨.ok [], .error .closed, 20⟩
    let p : Polling := ⟨100, [], fun k => if k = 0 then anna else half, some 250, none, fun _ => false⟩
    run p 9 = ([⟨[[⟨"Lobby", ["Anna"]⟩]], 1, 0, true⟩, ⟨[[⟨"Lobby", ["Anna"]⟩]], 1, 1, false⟩,
      ⟨[[⟨"Lobby", ["Anna"]⟩]], 1, 2, false⟩], some .hubClosed) := by
  decide +kernel

end Runs

end Poller

end VoiceRelay
