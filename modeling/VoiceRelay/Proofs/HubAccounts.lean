import VoiceRelay.Proofs.Dispatch
import Mathlib.Algebra.GroupWithZero.Nat

/-!
# The counts of the hub are right

A hub that counts keeps the size of its set, the number of accepted texts for each kind of message and
the number of failures. It does so from the lengths of lists and at several places: when a sink joins,
when one leaves, after a broadcast and at the end. Between two turns these counts agree with what the
hub did. When the loop is over, the number of active subscribers is not touched until all who are left
are closed.

**Design.** `sends` reads every text handed to a sink off the history, with the envelope it was written
from. `rounds` lists the broadcasts of a run, each with the hub that begins it. `Tallied` is the
invariant: it relates the counts to the set, to the history and to the rounds so far. A hub that waits
for ever for a sink to close is in the middle of a turn, and nothing is claimed of it.

**Results.**

- `broadcast_counts`: what a broadcast adds to the counts.
- `step_tallied`, `moves_tallied`: every move keeps the counts right.
- `counts_agree`: the counts of every run, between two turns.
-/

namespace VoiceRelay

namespace Hub

section Defs

/-- The envelope that was dispatched last. -/
def current : List Deed → Option Envelope
  | [] => none
  | .dispatched e :: _ => some e
  | _ :: past => current past

/-- The texts handed to sinks, newest first: the envelope that the text was written from, and whether
it was accepted in time. -/
def sends : List Deed → List (Option Envelope × Bool)
  | [] => []
  | .handed _ _ ok :: past => (current past, ok) :: sends past
  | _ :: past => sends past

/-- How many texts of a kind were accepted. -/
def acceptedOf (k : Header) (past : List Deed) : Nat :=
  (sends past).countP fun x => x.1.map Envelope.header = some k ∧ x.2 = true

/-- How many texts were not accepted in time. -/
def refusedIn (past : List Deed) : Nat := (sends past).countP fun x => !x.2

/-- What a move sends to all: the envelope, and the hub that begins the broadcast. -/
def round (h : Hub) : Move → List (Hub × Envelope)
  | .turn b => ((h.taken (.turn b)).filterMap Item.envelope?).map fun e => (h.behead b, e)
  | _ => []

/-- The broadcasts of a run, oldest first. -/
def rounds (h : Hub) : List Move → List (Hub × Envelope)
  | [] => []
  | m :: ms => h.round m ++ rounds (h.move m) ms

/-- The ids that are in the set before a broadcast and not after it. -/
def removedBy (h : Hub) (e : Envelope) : List SubscriberId :=
  (h.subscribers.map (·.id)).filter (· ∉ (h.broadcast e).1.subscribers.map (·.id))

/-- The counts of a hub fit its set, its history and its broadcasts. -/
structure Tallied (h : Hub) (rs : List (Hub × Envelope)) (c : HubCounts) : Prop where
  counts : h.counts = some c
  ids : (h.subscribers.map (·.id)).Nodup
  active : h.loopOver = false ∨ h.ended = true → c.active = h.subscribers.length
  delivered : ∀ k, c.delivered k = acceptedOf k h.history
  failures : c.failures = refusedIn h.history
  removed : c.failures = (rs.map fun r => (r.1.removedBy r.2).length).sum
  handed : (Header.all.map c.delivered).sum + c.failures =
    (rs.map fun r => r.1.subscribers.length).sum
  returned : ∀ r ∈ rs, (r.1.broadcast r.2).2 = (r.1.removedBy r.2).length

end Defs

section Reading

variable {past : List Deed}

theorem sends_closings (ns : List Nat) : sends (ns.map Deed.closed ++ past) = sends past := by
  induction ns with
  | nil => rfl
  | cons n ns ih => exact ih

/-- A text handed to several sinks is the text of the envelope dispatched last. -/
theorem sends_handed (past : List Deed) {subs : List Subscriber} (text : String)
    (ok : Subscriber → Bool) :
    sends ((subs.map fun s => Deed.handed s.serial text (ok s)).reverse ++ past) =
        (subs.map fun s => (current past, ok s)).reverse ++ sends past ∧
      current ((subs.map fun s => Deed.handed s.serial text (ok s)).reverse ++ past) =
        current past := by
  induction subs generalizing past with
  | nil => exact ⟨rfl, rfl⟩
  | cons s subs ih =>
    obtain ⟨hsends, hcurrent⟩ := ih (.handed s.serial text (ok s) :: past)
    simp only [List.map_cons, List.reverse_cons, List.append_assoc, List.singleton_append]
    exact ⟨hsends, hcurrent⟩

variable (h : Hub)

/-- A broadcast hands its envelope to everybody in the set. -/
theorem sends_broadcast (e : Envelope) :
    sends (h.broadcast e).1.history =
      (h.subscribers.map fun s => (some e, takes h.timeLimit s)).reverse ++ sends h.history := by
  obtain ⟨ns, hns⟩ := broadcast_history h e
  rw [hns, sends_closings, (sends_handed _ _ _).1]
  rfl

theorem sends_obey (c : Control) : sends (h.obey c).history = sends h.history := by
  obtain ⟨ns, hns⟩ := obey_history h c
  rw [hns, sends_closings]
  cases c <;> rfl

theorem acceptedOf_broadcast (e : Envelope) (k : Header) :
    acceptedOf k (h.broadcast e).1.history = acceptedOf k h.history +
      if k = e.header then h.subscribers.countP (takes h.timeLimit) else 0 := by
  unfold acceptedOf
  rw [sends_broadcast, List.countP_append, List.countP_reverse, List.countP_map, Nat.add_comm]
  congr 1
  split
  · next hk =>
    apply List.countP_congr
    intro s _
    simp [hk]
  · next hk =>
    rw [List.countP_eq_zero]
    intro s _
    simp [Ne.symm hk]

theorem refusedIn_broadcast (e : Envelope) :
    refusedIn (h.broadcast e).1.history =
      refusedIn h.history + h.subscribers.countP fun s => !takes h.timeLimit s := by
  unfold refusedIn
  rw [sends_broadcast, List.countP_append, List.countP_reverse, List.countP_map, Nat.add_comm]
  rfl

end Reading

section Counting

variable {h : Hub} {c : HubCounts}

theorem register_counts (hc : h.counts = some c) {id : SubscriberId} {sink : Sink}
    (hfree : (h.register id sink).stuck = false) :
    (h.register id sink).counts =
      some { c with active := (h.register id sink).subscribers.length } := by
  rw [register_subscribers]
  unfold register at hfree ⊢
  simp only at hfree ⊢
  split
  · simp [countActive, count, note, hc]
  · next t hsome =>
    rw [hsome] at hfree
    split
    · next hstuck =>
      simp only [hstuck, if_true] at hfree
      cases hfree
    · simp [countActive, count, close, note, hc]

theorem remove_counts (hc : h.counts = some c) (hactive : c.active = h.subscribers.length)
    {id : SubscriberId} (hfree : (h.remove id).stuck = false) :
    (h.remove id).counts = some { c with active := (h.remove id).subscribers.length } := by
  unfold remove at hfree ⊢
  split
  · rw [hc, ← hactive]
  · next t hsome =>
    rw [hsome] at hfree
    simp only at hfree ⊢
    split
    · next hstuck =>
      simp only [hstuck, if_true] at hfree
      cases hfree
    · simp [countActive, count, close, note, hc]

/-- Removing several keeps the number of active subscribers right. -/
theorem removeAll_counts {ids : List SubscriberId} (hc : h.counts = some c)
    (hactive : c.active = h.subscribers.length) (hfree : (h.removeAll ids).stuck = false) :
    (h.removeAll ids).counts = some { c with active := (h.removeAll ids).subscribers.length } := by
  induction ids generalizing h c with
  | nil =>
    rw [removeAll, hc, ← hactive]
  | cons id ids ih =>
    have hnow := free_of_removeAll hfree
    rw [removeAll, hnow, if_neg Bool.false_ne_true] at hfree ⊢
    -- Each removal sets the number anew, so it is right again before the next one.
    exact ih (c := { c with active := (h.remove id).subscribers.length })
      (remove_counts hc hactive (free_of_removeAll hfree)) rfl hfree

/-- The number that did not fail is the number that took the text. -/
theorem length_sub_failed (p : Subscriber → Bool) (subs : List Subscriber) :
    subs.length - ((subs.filter fun s => !p s).map (·.id)).length = subs.countP p := by
  rw [List.length_map, ← List.countP_eq_length_filter, List.length_eq_countP_add_countP p]
  simp

/-- **What a broadcast adds to the counts.** -/
theorem broadcast_counts {e : Envelope} (hc : h.counts = some c)
    (hactive : c.active = h.subscribers.length) (hfree : (h.broadcast e).1.stuck = false) :
    (h.broadcast e).1.counts = some
      { active := (h.broadcast e).1.subscribers.length
        failures := c.failures + h.subscribers.countP fun s => !takes h.timeLimit s
        delivered := fun k =>
          c.delivered k + if k = e.header then h.subscribers.countP (takes h.timeLimit) else 0
        broadcasts := c.broadcasts + 1 } := by
  have hall := broadcast_free hfree
  have hcounts := removeAll_counts (h := (h.note (.dispatched e)).handAll e.toJson) hc
    (by simpa [handAll, note] using hactive) hall
  rw [(broadcast_eq h e).1]
  unfold broadcast
  simp only [length_sub_failed]
  rw [if_neg (by simp [hall])]
  simp only [count, hcounts, Option.map_some, List.length_map, ← List.countP_eq_length_filter]
  congr 2
  funext k
  split <;> rfl

end Counting

section Rounds

variable {h : Hub} {e : Envelope}

/-- A broadcast removes the ids of those who did not take the text. -/
theorem removedBy_eq (hids : (h.subscribers.map (·.id)).Nodup)
    (hfree : (h.broadcast e).1.stuck = false) :
    h.removedBy e = (h.subscribers.filter fun s => !takes h.timeLimit s).map (·.id) := by
  unfold removedBy
  rw [broadcast_subscribers hids hfree, List.filter_map, List.map_map]
  congr 1
  apply List.filter_congr
  intro s hs
  have hstays := id_mem_filter hids hs (takes h.timeLimit)
  simp only [Function.comp_def, decide_not, hstays, Bool.decide_eq_true]

/-- Every accepted text is counted under one header. -/
theorem sum_delivered (f : Header → Nat) (n : Nat) (k : Header) :
    (Header.all.map fun i => f i + if i = k then n else 0).sum = (Header.all.map f).sum + n := by
  cases k <;> simp [Header.all] <;> omega

variable {rs : List (Hub × Envelope)} {c : HubCounts} {h' : Hub}

/-- A change of the set that hands out nothing. -/
theorem Tallied.resize (ht : h.Tallied rs c) (hsends : sends h'.history = sends h.history)
    (hids : (h'.subscribers.map (·.id)).Nodup)
    (hcounts : h'.counts = some { c with active := h'.subscribers.length }) :
    h'.Tallied rs { c with active := h'.subscribers.length } where
  counts := hcounts
  ids := hids
  active _ := rfl
  delivered k := by
    rw [acceptedOf, hsends]
    exact ht.delivered k
  failures := by
    rw [refusedIn, hsends]
    exact ht.failures
  removed := ht.removed
  handed := ht.handed
  returned := ht.returned

/-- What the counts say does not depend on queues, senders and signals. -/
theorem Tallied.congr (ht : h.Tallied rs c) (hsubs : h'.subscribers = h.subscribers)
    (hhistory : h'.history = h.history) (hcounts : h'.counts = h.counts)
    (hover : h'.loopOver = h.loopOver) (hended : h'.ended = h.ended) : h'.Tallied rs c where
  counts := hcounts.trans ht.counts
  ids := by
    rw [hsubs]
    exact ht.ids
  active := by
    rw [hsubs, hover, hended]
    exact ht.active
  delivered := by
    rw [hhistory]
    exact ht.delivered
  failures := by
    rw [hhistory]
    exact ht.failures
  removed := ht.removed
  handed := ht.handed
  returned := ht.returned

theorem Tallied.obey (ht : h.Tallied rs c) (hlive : h.loopOver = false) {command : Control}
    (hfree : (h.obey command).stuck = false) : ∃ c', (h.obey command).Tallied rs c' := by
  have hsends := sends_obey h command
  cases command with
  | register id sink =>
    refine ⟨_, ht.resize hsends ?_ (register_counts ht.counts hfree)⟩
    rw [Hub.obey, register_subscribers]
    exact ids_replaced ht.ids ⟨id, h.serials, sink, 0⟩
  | unregister id =>
    refine ⟨_, ht.resize hsends ?_ (remove_counts ht.counts (ht.active (Or.inl hlive)) hfree)⟩
    rw [Hub.obey, remove_subscribers]
    exact ht.ids.sublist (List.filter_sublist.map _)
  | count =>
    have hsize : (h.obey .count).subscribers.length = c.active :=
      (ht.active (Or.inl hlive)).symm
    refine ⟨_, ht.resize hsends ht.ids ?_⟩
    rw [hsize]
    exact ht.counts

/-- **A broadcast keeps the counts right.** -/
theorem Tallied.broadcast (ht : h.Tallied rs c) (hlive : h.loopOver = false)
    (hfree : (h.broadcast e).1.stuck = false) :
    ∃ c', (h.broadcast e).1.Tallied (rs ++ [(h, e)]) c' := by
  have hremoved : (h.removedBy e).length = h.subscribers.countP fun s => !takes h.timeLimit s := by
    rw [removedBy_eq ht.ids hfree, List.length_map, List.countP_eq_length_filter]
  have hsplit := List.length_eq_countP_add_countP (l := h.subscribers) (takes h.timeLimit)
  refine ⟨_, broadcast_counts ht.counts (ht.active (Or.inl hlive)) hfree, ?_, fun _ => rfl,
    fun k => ?_, ?_, ?_, ?_, ?_⟩
  · rw [broadcast_subscribers ht.ids hfree, List.map_map]
    exact ht.ids.sublist (List.filter_sublist.map _)
  · rw [acceptedOf_broadcast, ← ht.delivered]
  · rw [refusedIn_broadcast, ht.failures]
  · rw [List.map_append, List.sum_append_nat, ← ht.removed]
    simp [hremoved]
  · -- Everybody in the set either took the text or did not.
    rw [List.map_append, List.sum_append_nat, ← ht.handed, sum_delivered]
    simp only [List.map_cons, List.map_nil, List.sum_cons, List.sum_nil]
    simp only [Bool.not_eq_true, Bool.decide_eq_false] at hsplit
    omega
  · intro r hr
    rcases List.mem_append.1 hr with hr | hr
    · exact ht.returned r hr
    · rw [List.mem_singleton.1 hr]
      exact (congrArg List.length (removedBy_eq ht.ids hfree)).symm

end Rounds

section Running

variable {h : Hub} {rs : List (Hub × Envelope)} {c : HubCounts}

/-- At the end of the loop the counts stay as they are. -/
theorem Tallied.quit (ht : h.Tallied rs c) (hlive : h.ended = false) : h.quit.Tallied rs c :=
  { ht with active := fun hend => by simp [Hub.quit, hlive] at hend }

/-- A subscriber that is closed after the loop is still counted as active. -/
theorem Tallied.goodbye (ht : h.Tallied rs c) {s : Subscriber} {rest : List Subscriber}
    (hs : h.subscribers = s :: rest) (hover : h.loopOver = true) (hlive : h.ended = false) :
    ({ h with subscribers := rest }.close s).Tallied rs c := by
  have hids := ht.ids
  rw [hs, List.map_cons, List.nodup_cons] at hids
  exact
    { ht with
      ids := hids.2
      active := fun hend => by simp [close, note, hover, hlive] at hend }

/-- At the end of the hub nobody is active. -/
theorem Tallied.finish (ht : h.Tallied rs c) (hnone : h.subscribers = []) :
    ∃ c', h.finish.Tallied rs c' := by
  have hsize : h.finish.subscribers.length = 0 := congrArg List.length hnone
  refine ⟨_, ht.resize rfl ht.ids ?_⟩
  rw [hsize]
  simp [Hub.finish, count, ht.counts]

theorem Tallied.behead (ht : h.Tallied rs c) (b : Branch) : (h.behead b).Tallied rs c := by
  obtain ⟨control, chats, rosters, lines, heq⟩ := behead_same h b
  rw [heq]
  exact ht.congr rfl rfl rfl rfl rfl

theorem behead_loopOver (h : Hub) (b : Branch) : (h.behead b).loopOver = h.loopOver := by
  obtain ⟨control, chats, rosters, lines, heq⟩ := behead_same h b
  rw [heq]

/-- **Every turn that comes to its end keeps the counts right.** -/
theorem step_tallied (ht : h.Tallied rs c) {b : Branch} (hfree : (h.step b).stuck = false) :
    ∃ c', (h.step b).Tallied (rs ++ h.round (.turn b)) c' := by
  have hturn := h.step_dispatches b
  have hround : h.round (.turn b) =
      ((h.taken (.turn b)).filterMap Item.envelope?).map fun e => (h.behead b, e) := rfl
  rw [hround]
  generalize h.taken (.turn b) = items at *
  generalize h.step b = h' at *
  cases hturn with
  | idle _ => exact ⟨c, by simpa using ht⟩
  | signal hready => exact ⟨c, by simpa using ht.quit (ended_of_ready hready)⟩
  | goodbye hready hs =>
    exact ⟨c, by simpa using ht.goodbye hs (loopOver_of_farewell hready) (ended_of_ready hready)⟩
  | last _ hnone => simpa using ht.finish hnone
  | @item _ i _ hready hw =>
    have hlive : (h.behead b).loopOver = false := by
      rw [behead_loopOver]
      refine live_of_ready ?_ hready
      rintro rfl
      cases hw
    cases i with
    | control command =>
      obtain ⟨c', ht'⟩ := (ht.behead b).obey hlive hfree
      have hnone : [Item.control command].filterMap Item.envelope? = [] := rfl
      rw [hnone, List.map_nil, List.append_nil]
      exact ⟨c', ht'⟩
    | chat m | roster r | server t => exact (ht.behead b).broadcast hlive hfree
  | empty _ hready _ =>
    rw [List.filterMap_nil, List.map_nil, List.append_nil]
    have ht' : { h with openBranches := h.openBranches.filter (fun c => c != b) }.Tallied rs c :=
      ht.congr rfl rfl rfl rfl rfl
    have hlive := ended_of_ready hready
    unfold shut
    simp only
    split
    · exact ⟨c, ht'.quit hlive⟩
    · exact ⟨c, ht'⟩

/-- Between the end of the loop and that of the hub no count changes. -/
theorem counts_of_loopOver (hover : h.loopOver = true) {b : Branch} (hended : (h.step b).ended = false) :
    (h.step b).counts = h.counts := by
  have hturn := h.step_turns b
  generalize h.step b = h' at *
  cases hturn with
  | idle _ | signal _ | goodbye _ _ => rfl
  | last _ _ => cases hended
  | control hready _ =>
    rw [live_of_ready (by decide) hready] at hover
    cases hover
  | value hready hp =>
    rw [live_of_ready (of_mem_queues hp.mem_queues).2 hready] at hover
    cases hover
  | empty hb hready _ =>
    rw [live_of_ready (of_mem_queues hb).2 hready] at hover
    cases hover

/-- A hub that waits for a sink to close takes no turn any more. -/
theorem free_of_move {m : Move} (hfree : (h.move m).stuck = false) : h.stuck = false := by
  rcases h.move_cases m with ⟨b, rfl⟩ | ⟨-, _, _, _, _, _, _, _, heq⟩
  · rw [← Bool.not_eq_true]
    intro hstuck
    have hidle : h.step b = h := by simp [step, ready, hstuck]
    rw [move, hidle, hstuck] at hfree
    cases hfree
  · rw [heq] at hfree
    exact hfree

theorem free_of_moves {ms : List Move} (hfree : (h.moves ms).stuck = false) :
    h.stuck = false := by
  induction ms generalizing h with
  | nil => exact hfree
  | cons m ms ih => exact free_of_move (ih hfree)

theorem move_tallied (ht : h.Tallied rs c) {m : Move} (hfree : (h.move m).stuck = false) :
    ∃ c', (h.move m).Tallied (rs ++ h.round m) c' := by
  rcases h.move_cases m with ⟨b, rfl⟩ | ⟨hm, _, _, _, _, _, _, _, heq⟩
  · exact step_tallied ht hfree
  · have hround : h.round m = [] := by
      cases m with
      | turn b => exact absurd rfl (hm b)
      | offer i | signal | hangUp | lend b | release b => rfl
    rw [hround, List.append_nil, heq]
    exact ⟨c, ht.congr rfl rfl rfl rfl rfl⟩

/-- **Runs keep the counts right**, as long as every sink that they close does close. -/
theorem moves_tallied (ht : h.Tallied rs c) {ms : List Move} (hfree : (h.moves ms).stuck = false) :
    ∃ c', (h.moves ms).Tallied (rs ++ h.rounds ms) c' := by
  induction ms generalizing h rs c with
  | nil => exact ⟨c, by simpa [rounds, moves] using ht⟩
  | cons m ms ih =>
    obtain ⟨c', ht'⟩ := move_tallied ht (free_of_moves (h := h.move m) hfree)
    rw [rounds, ← List.append_assoc]
    exact ih ht' hfree

theorem fresh_tallied (timeLimit : Nat) : (fresh timeLimit true).Tallied [] noCounts where
  counts := rfl
  ids := List.nodup_nil
  active _ := rfl
  delivered _ := rfl
  failures := rfl
  removed := rfl
  handed := rfl
  returned r hr := by cases hr

/-- The envelopes of the broadcasts are those among the items taken. -/
theorem rounds_envelopes (h : Hub) (ms : List Move) :
    (h.rounds ms).map Prod.snd = (h.takenIn ms).filterMap Item.envelope? := by
  induction ms generalizing h with
  | nil => rfl
  | cons m ms ih =>
    rw [rounds, takenIn, List.map_append, List.filterMap_append, ih]
    congr 1
    cases m with
    | turn b => simp [round, Function.comp_def]
    | offer i | signal | hangUp | lend b | release b => rfl

/-- **The counts of a hub are right between two turns.** While the loop goes on and after the end, the
number of active subscribers is the size of the set, and what a question for it is answered; in between,
while those who are left are closed, no count changes. The number of delivered texts of each kind is that of
the accepted ones; the number of failures is that of the texts not accepted, and that of the ids removed by
broadcasts; all of them together are the sizes of the sets that the broadcasts began with. A broadcast
reports what it removed, which is never more than the set. After the end nobody is active. -/
theorem counts_agree (timeLimit : Nat) (ms : List Move)
    (hfree : (run timeLimit true ms).stuck = false) :
    let h := run timeLimit true ms
    let rs := (fresh timeLimit true).rounds ms
    rs.map Prod.snd = dispatchedIn h.history ∧
    ∃ c, h.counts = some c ∧
      (h.loopOver = false ∨ h.ended = true → c.active = h.subscribers.length ∧
        (h.obey .count).history = .counted c.active :: h.history) ∧
      (h.loopOver = true → ∀ b, (h.step b).ended = false → (h.step b).counts = some c) ∧
      (∀ k, c.delivered k = acceptedOf k h.history) ∧
      c.failures = refusedIn h.history ∧
      c.failures = (rs.map fun r => (r.1.removedBy r.2).length).sum ∧
      (Header.all.map c.delivered).sum + c.failures =
        (rs.map fun r => r.1.subscribers.length).sum ∧
      (∀ r ∈ rs, (r.1.broadcast r.2).2 = (r.1.removedBy r.2).length ∧
        (r.1.broadcast r.2).2 ≤ r.1.subscribers.length) ∧
      (h.ended = true → c.active = 0) := by
  intro h rs
  obtain ⟨c, ht⟩ := moves_tallied (fresh_tallied timeLimit) hfree
  rw [List.nil_append] at ht
  refine ⟨?_, c, ht.counts, fun hbetween => ⟨ht.active hbetween, ?_⟩,
    fun hover b hended => (counts_of_loopOver hover hended).trans ht.counts, ht.delivered, ht.failures,
    ht.removed, ht.handed, fun r hr => ⟨ht.returned r hr, ?_⟩, fun hended => ?_⟩
  · exact (rounds_envelopes _ ms).trans (dispatchedIn_moves (fresh timeLimit true) ms).symm
  · rw [ht.active hbetween]
    rfl
  · rw [ht.returned r hr, removedBy]
    exact Nat.le_trans (List.length_filter_le _ _) (Nat.le_of_eq (List.length_map _))
  · have hnobody : h.subscribers = [] := moves_vacant (fresh timeLimit true) (fun _ => rfl) ms hended
    rw [ht.active (Or.inr hended)]
    exact congrArg List.length hnobody

/-- Two of three sinks fail at the same chat message; the third gets the next message too. -/
theorem counts_agree_two_fail :
    let steady : Sink := ⟨fun _ => .accepts 3, true⟩
    let broken : Sink := ⟨fun _ => .refuses 0, true⟩
    let slow : Sink := ⟨fun _ => .stalls, true⟩
    let ms : List Move := [.offer (.control (.register ⟨1⟩ broken)), .turn .control,
      .offer (.control (.register ⟨2⟩ steady)), .turn .control,
      .offer (.control (.register ⟨3⟩ slow)), .turn .control,
      .offer (.chat ⟨"10.0.0.1", "a", "12:00"⟩), .turn .chat, .offer (.server "b"), .turn .server]
    (run 5 true ms).stuck = false ∧
      ∃ c, (run 5 true ms).counts = some c ∧ c.active = 1 ∧ c.failures = 2 ∧
        c.delivered .chat = 1 ∧ c.delivered .server = 1 := by
  intro steady broken slow ms
  have hfree : (run 5 true ms).stuck = false := by decide +kernel
  have hlive : (run 5 true ms).loopOver = false := by decide +kernel
  obtain ⟨-, c, hc, hbetween, -, hdelivered, hfailures, -⟩ := counts_agree 5 ms hfree
  have hactive := (hbetween (Or.inl hlive)).1
  have hsize : (run 5 true ms).subscribers.length = 1 := by decide +kernel
  have hrefused : refusedIn (run 5 true ms).history = 2 := by decide +kernel
  have hchat : acceptedOf .chat (run 5 true ms).history = 1 := by decide +kernel
  have hserver : acceptedOf .server (run 5 true ms).history = 1 := by decide +kernel
  exact ⟨hfree, c, hc, hactive.trans hsize, hfailures.trans hrefused, (hdelivered _).trans hchat,
    (hdelivered _).trans hserver⟩

end Running

end Hub

end VoiceRelay
