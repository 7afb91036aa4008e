import VoiceRelay.Proofs.HubHistory

/-!
# Runs of the hub

A run of the hub is any order of offers to its queues and of turns on any branch, with the signal to
stop and the end of handles and senders anywhere in between.

**Design.** `Kept` is the invariant of the hub: its history fits its set, no id stands twice in the
set, and every sink that the hub may have to close does close. `Grows` says that the history only
grows, and that new registrations get new numbers.

**Results.**

- `step_turns`, `move_cases`: what a turn can do, and what other moves leave as it is.
- `moves_grows`: the history of a run only grows.
- `run_kept`: the invariant holds after every run.
-/

namespace VoiceRelay

namespace Hub

section Defs

/-- What can happen around the hub: an item is offered, the loop takes a turn on a branch, the signal
to stop is given, the last handle goes, a sender of one queue is handed out or given up. -/
inductive Move
  | offer (item : Item)
  | turn (branch : Branch)
  | signal
  | hangUp
  | lend (branch : Branch)
  | release (branch : Branch)

/-- The hub after a move; nobody can offer anything to a queue that is deserted. -/
def move (h : Hub) : Move → Hub
  | .offer item => if h.deserted item.branch then h else (h.offer item).2
  | .turn b => h.step b
  | .signal => { h with signalled := true }
  | .hangUp => { h with sendersGone := true }
  | .lend b => h.lend b
  | .release b => h.release b

/-- The hub after several moves. -/
def moves (h : Hub) (ms : List Move) : Hub := ms.foldl move h

/-- A run from the start. -/
def run (timeLimit : Nat) (counting : Bool) (ms : List Move) : Hub :=
  (fresh timeLimit counting).moves ms

/-- Closing any of the sinks that are offered ends. -/
def Obliging (ms : List Move) : Prop :=
  ∀ id sink, Move.offer (.control (.register id sink)) ∈ ms → sink.closes = true

/-- The invariant of the hub; `doomed` names those that are about to leave. -/
structure Kept (doomed : SubscriberId → Prop) (h : Hub) : Prop where
  books : Books doomed h.subscribers h.serials h.history
  ids : (h.subscribers.map (·.id)).Nodup
  closing : ∀ s ∈ h.subscribers, s.sink.closes = true
  orders : ∀ id sink, Control.register id sink ∈ h.control → sink.closes = true
  free : h.stuck = false

/-- The history has grown, and who was registered meanwhile has a new number. -/
def Grows (h h' : Hub) : Prop :=
  ∃ deeds, h'.history = deeds ++ h.history ∧ h.serials ≤ h'.serials ∧
    ∀ n id, Deed.registered n id ∈ deeds → h.serials ≤ n

/-- A value is taken from the head of its queue, to be sent to all. -/
inductive Pops (h : Hub) : Branch → Envelope → Hub → Prop
  | chat {m : ChatMessage} {rest : List ChatMessage} : h.chats = m :: rest →
      Pops h .chat (.chat m) { h with chats := rest }
  | roster {r : List Room} {rest : List (List Room)} : h.rosters = r :: rest →
      Pops h .roster (.roster r) { h with rosters := rest }
  | server {t : String} {rest : List String} : h.lines = t :: rest →
      Pops h .server (.server t) { h with lines := rest }

/-- What a turn on a branch comes to. -/
inductive Turns (h : Hub) : Branch → Hub → Prop
  | idle {b : Branch} : h.ready b = false → Turns h b h
  | signal : h.ready .signal = true → Turns h .signal h.quit
  | goodbye {s : Subscriber} {rest : List Subscriber} : h.ready .farewell = true →
      h.subscribers = s :: rest → Turns h .farewell ({ h with subscribers := rest }.close s)
  | last : h.ready .farewell = true → h.subscribers = [] → Turns h .farewell h.finish
  | control {c : Control} {rest : List Control} : h.ready .control = true →
      h.control = c :: rest → Turns h .control ({ h with control := rest }.obey c)
  | value {b : Branch} {e : Envelope} {g : Hub} : h.ready b = true → h.Pops b e g →
      Turns h b (g.broadcast e).1
  | empty {b : Branch} : b ∈ queues → h.ready b = true → h.isEmpty b = true →
      Turns h b (h.shut b)

end Defs

section Turning

/-- What a turn can do. -/
theorem step_turns (h : Hub) (b : Branch) : h.Turns b (h.step b) := by
  unfold step
  by_cases hready : h.ready b = true
  · rw [if_pos hready]
    cases b with
    | signal => exact .signal hready
    | farewell =>
      simp only [farewell]
      rcases hs : h.subscribers with _ | ⟨s, rest⟩
      · exact .last hready hs
      · exact .goodbye hready hs
    | control =>
      rcases hq : h.control with _ | ⟨c, rest⟩
      · exact .empty (by decide) hready (by simp [isEmpty, hq])
      · exact .control hready hq
    | chat =>
      rcases hq : h.chats with _ | ⟨m, rest⟩
      · exact .empty (by decide) hready (by simp [isEmpty, hq])
      · exact .value hready (.chat hq)
    | roster =>
      rcases hq : h.rosters with _ | ⟨r, rest⟩
      · exact .empty (by decide) hready (by simp [isEmpty, hq])
      · exact .value hready (.roster hq)
    | server =>
      rcases hq : h.lines with _ | ⟨t, rest⟩
      · exact .empty (by decide) hready (by simp [isEmpty, hq])
      · exact .value hready (.server hq)
  · rw [if_neg hready]
    exact .idle (by simpa using hready)

/-- A turn on a queue that holds a value sends that value to all. -/
theorem Pops.step {h g : Hub} {b : Branch} {e : Envelope} (hp : h.Pops b e g)
    (hready : h.ready b = true) : h.step b = (g.broadcast e).1 := by
  unfold Hub.step
  rw [if_pos hready]
  cases hp with
  | chat hq | roster hq | server hq => rw [hq]

/-- A turn on an empty queue shuts it. -/
theorem step_empty {h : Hub} {b : Branch} (hb : b ∈ queues) (hready : h.ready b = true)
    (hq : h.isEmpty b = true) : h.step b = h.shut b := by
  unfold step
  rw [if_pos hready]
  cases b with
  | signal | farewell => exact absurd hb (by decide)
  | control | chat | roster | server =>
    simp only [isEmpty, List.isEmpty_iff] at hq
    rw [hq]

/-- A queue is neither the signal nor what is done after the loop. -/
theorem of_mem_queues {b : Branch} (hb : b ∈ queues) : b ≠ .signal ∧ b ≠ .farewell := by
  constructor <;> (rintro rfl; exact absurd hb (by decide))

theorem Pops.mem_queues {h g : Hub} {b : Branch} {e : Envelope} (hp : h.Pops b e g) :
    b ∈ queues := by
  cases hp <;> decide

/-- A queue that is shut is not polled any more, and the loop may be over then. -/
theorem shut_same (h : Hub) (b : Branch) :
    ∃ loopOver, h.shut b =
      { h with openBranches := h.openBranches.filter (fun c => c != b), loopOver } := by
  unfold shut
  simp only
  split <;> exact ⟨_, rfl⟩

/-- Taking a value from its queue changes nothing else. -/
theorem Pops.same {h g : Hub} {b : Branch} {e : Envelope} (hp : h.Pops b e g) :
    g.subscribers = h.subscribers ∧ g.history = h.history ∧ g.serials = h.serials := by
  cases hp <;> exact ⟨rfl, rfl, rfl⟩

end Turning

section Growing

theorem Grows.refl (h : Hub) : h.Grows h := ⟨[], by simp⟩

theorem Grows.trans {h₁ h₂ h₃ : Hub} (h : h₁.Grows h₂) (h' : h₂.Grows h₃) : h₁.Grows h₃ := by
  obtain ⟨ds, hds, hle, hnew⟩ := h
  obtain ⟨ds', hds', hle', hnew'⟩ := h'
  refine ⟨ds' ++ ds, by rw [hds', hds, List.append_assoc], Nat.le_trans hle hle', ?_⟩
  intro n id hmem
  rcases List.mem_append.1 hmem with hmem | hmem
  · exact Nat.le_trans hle (hnew' n id hmem)
  · exact hnew n id hmem

variable (h : Hub)

theorem close_grows (s : Subscriber) : h.Grows (h.close s) :=
  ⟨[.closed s.serial], rfl, Nat.le_refl _, by simp⟩

theorem remove_grows (id : SubscriberId) : h.Grows (h.remove id) := by
  unfold remove
  split
  · exact Grows.refl h
  · next t _ =>
    simp only
    split
    all_goals exact ⟨[.closed t.serial], rfl, Nat.le_refl _, by simp⟩

theorem removeAll_grows (ids : List SubscriberId) : h.Grows (h.removeAll ids) := by
  induction ids generalizing h with
  | nil => exact Grows.refl h
  | cons id ids ih =>
    unfold removeAll
    split
    · exact Grows.refl h
    · exact (remove_grows h id).trans (ih _)

theorem register_grows (id : SubscriberId) (sink : Sink) : h.Grows (h.register id sink) := by
  unfold register
  simp only
  split
  · exact ⟨[.registered h.serials id], rfl, Nat.le_succ _, by simp⟩
  · next t _ =>
    split
    all_goals exact ⟨[.closed t.serial, .registered h.serials id], rfl, Nat.le_succ _, by simp⟩

theorem broadcast_grows (e : Envelope) : h.Grows (h.broadcast e).1 := by
  have hhand : h.Grows ((h.note (.dispatched e)).handAll e.toJson) :=
    ⟨(h.subscribers.map fun s => Deed.handed s.serial e.toJson (takes h.timeLimit s)).reverse ++
      [.dispatched e], by simp [handAll, note], Nat.le_refl _, by simp⟩
  have hall := hhand.trans (removeAll_grows _
    ((h.subscribers.filter fun s => !takes h.timeLimit s).map (·.id)))
  unfold broadcast
  simp only
  split <;> exact hall

theorem shut_grows (b : Branch) : h.Grows (h.shut b) := by
  obtain ⟨loopOver, heq⟩ := shut_same h b
  rw [heq]
  exact Grows.refl h

theorem obey_grows (c : Control) : h.Grows (h.obey c) := by
  cases c with
  | register id sink => exact register_grows h id sink
  | unregister id => exact remove_grows h id
  | count => exact ⟨[.counted h.subscribers.length], rfl, Nat.le_refl _, by simp⟩

theorem step_grows (b : Branch) : h.Grows (h.step b) := by
  have hturn := h.step_turns b
  generalize h.step b = h' at *
  cases hturn with
  | idle _ | signal _ | last _ _ => exact Grows.refl h
  | @goodbye s rest _ _ => exact close_grows { h with subscribers := rest } s
  | @control c rest _ _ => exact obey_grows { h with control := rest } c
  | @value _ e g _ hp =>
    obtain ⟨-, hhistory, hserials⟩ := hp.same
    have hgrows := broadcast_grows g e
    unfold Grows at hgrows ⊢
    rwa [hhistory, hserials] at hgrows
  | empty _ _ _ => exact shut_grows h b

/-- Putting an item into its queue leaves all but the queues as it is. -/
theorem push_same (i : Item) :
    ∃ control chats rosters lines, h.push i = { h with control, chats, rosters, lines } := by
  cases i <;> exact ⟨_, _, _, _, rfl⟩

/-- Offering an item leaves all but the queues as it is. -/
theorem offer_same (i : Item) :
    ∃ control chats rosters lines, (h.offer i).2 = { h with control, chats, rosters, lines } := by
  unfold offer
  split
  · exact ⟨_, _, _, _, rfl⟩
  · split
    · exact ⟨_, _, _, _, rfl⟩
    · exact push_same h i

/-- A move is a turn, or it changes nothing but the queues, the senders and the signal. -/
theorem move_cases (m : Move) :
    (∃ b, m = .turn b) ∨ (∀ b, m ≠ .turn b) ∧
      ∃ control chats rosters lines gone senders signal, h.move m =
        { h with
          control, chats, rosters, lines
          sendersGone := gone
          loose := senders
          signalled := signal } := by
  cases m with
  | turn b => exact Or.inl ⟨b, rfl⟩
  | offer i =>
    refine Or.inr ⟨nofun, ?_⟩
    simp only [move]
    split
    · exact ⟨_, _, _, _, _, _, _, rfl⟩
    · obtain ⟨control, chats, rosters, lines, heq⟩ := offer_same h i
      exact ⟨_, _, _, _, _, _, _, heq⟩
  | lend b =>
    refine Or.inr ⟨nofun, ?_⟩
    simp only [move, lend]
    split <;> exact ⟨_, _, _, _, _, _, _, rfl⟩
  | signal | hangUp | release b => exact Or.inr ⟨nofun, _, _, _, _, _, _, _, rfl⟩

theorem move_grows (m : Move) : h.Grows (h.move m) := by
  rcases h.move_cases m with ⟨b, rfl⟩ | ⟨-, _, _, _, _, _, _, _, heq⟩
  · exact step_grows h b
  · rw [heq]
    exact Grows.refl h

/-- The history of a run only grows. -/
theorem moves_grows (ms : List Move) : h.Grows (h.moves ms) := by
  induction ms generalizing h with
  | nil => exact Grows.refl h
  | cons m ms ih => exact (move_grows h m).trans (ih (h.move m))

end Growing

section Keeping

variable {h : Hub} {doomed : SubscriberId → Prop}

/-- No one in particular is about to leave. -/
def Nobody (_ : SubscriberId) : Prop := False

theorem fresh_kept (timeLimit : Nat) (counting : Bool) : (fresh timeLimit counting).Kept Nobody where
  books := Books.nil
  ids := List.nodup_nil
  closing s hs := by cases hs
  orders id sink hc := by cases hc
  free := rfl

theorem Kept.eq_of_id (hk : h.Kept doomed) {s t : Subscriber} (hs : s ∈ h.subscribers)
    (ht : t ∈ h.subscribers) (heq : s.id = t.id) : s = t :=
  List.inj_on_of_nodup_map hk.ids hs ht heq

/-- To leave out an id of the set is to leave out one registration. -/
theorem Kept.filter_id (hk : h.Kept doomed) {t : Subscriber} (ht : t ∈ h.subscribers) :
    h.subscribers.filter (fun s => !(s.id == t.id)) =
      h.subscribers.filter (·.serial ≠ t.serial) := by
  apply List.filter_congr
  intro s hs
  by_cases hid : s.id = t.id
  · have hst : s = t := hk.eq_of_id hs ht hid
    simp [hst]
  · have hserial : s.serial ≠ t.serial := by
      intro heq
      exact hid (by rw [hk.books.eq_of_serial hs ht heq])
    simp [hid, hserial]

/-- Closing a sink of the set leaves the hub free to go on. -/
theorem Kept.close_free (hk : h.Kept doomed) {t : Subscriber} (ht : t ∈ h.subscribers) :
    (h.stuck || !t.sink.closes) = false := by
  rw [hk.free, hk.closing t ht]
  rfl

theorem remove_kept (hk : h.Kept doomed) (id : SubscriberId) :
    (h.remove id).Kept fun i => doomed i ∧ i ≠ id := by
  unfold remove
  split
  · next hnone =>
    have habsent : ∀ s ∈ h.subscribers, s.id ≠ id := by simpa using hnone
    exact { hk with books := hk.books.weaken fun s hs hd => ⟨hd, habsent s hs⟩ }
  · next t hsome =>
    have ht : t ∈ h.subscribers := List.mem_of_find?_eq_some hsome
    have hid : t.id = id := by simpa using List.find?_some hsome
    subst hid
    have hleft : ∀ s ∈ h.subscribers.filter (fun s => !(s.id == t.id)),
        s ∈ h.subscribers ∧ s.id ≠ t.id := by
      intro s hs
      simpa using hs
    have hbooks := hk.books.leave t.serial
    rw [← hk.filter_id ht] at hbooks
    simp only [close, note, hk.close_free ht, Bool.false_eq_true, if_false]
    exact ⟨hbooks.weaken fun s hs hd => ⟨hd, (hleft s hs).2⟩,
      hk.ids.sublist (List.filter_sublist.map _), fun s hs => hk.closing s (hleft s hs).1,
      hk.orders, rfl⟩

theorem removeAll_kept {ids : List SubscriberId} (hk : h.Kept (· ∈ ids)) :
    (h.removeAll ids).Kept Nobody := by
  induction ids generalizing h with
  | nil => exact { hk with books := hk.books.weaken fun s _ hd => by simp at hd }
  | cons id ids ih =>
    unfold removeAll
    rw [hk.free, if_neg Bool.false_ne_true]
    have hrest := remove_kept hk id
    refine ih { hrest with books := hrest.books.weaken fun s _ hd => ?_ }
    rcases List.mem_cons.1 hd.1 with heq | hmem
    · exact absurd heq hd.2
    · exact hmem

/-- A subscriber that replaces those of its id keeps the ids apart. -/
theorem ids_replaced {subs : List Subscriber} (hids : (subs.map (·.id)).Nodup) (s : Subscriber) :
    ((subs.filter (fun t => !(t.id == s.id)) ++ [s]).map (·.id)).Nodup := by
  rw [List.map_append, List.nodup_append]
  refine ⟨hids.sublist (List.filter_sublist.map _), by simp, ?_⟩
  intro i hi j hj heq
  obtain ⟨t, ht, rfl⟩ := List.mem_map.1 hi
  have ht' : t ∈ subs ∧ t.id ≠ s.id := by simpa using ht
  have hj' : j = s.id := by simpa using hj
  exact ht'.2 (heq.trans hj')

theorem register_kept (hk : h.Kept doomed) (id : SubscriberId) {sink : Sink}
    (hsink : sink.closes = true) : (h.register id sink).Kept doomed := by
  have hleft : ∀ s ∈ h.subscribers.filter (fun s => !(s.id == id)),
      s ∈ h.subscribers ∧ s.id ≠ id := by
    intro s hs
    simpa using hs
  have hids : ((h.subscribers.filter (fun s => !(s.id == id)) ++
      [(⟨id, h.serials, sink, 0⟩ : Subscriber)]).map (·.id)).Nodup :=
    ids_replaced hk.ids ⟨id, h.serials, sink, 0⟩
  have hclosing : ∀ s ∈ h.subscribers.filter (fun s => !(s.id == id)) ++
      [(⟨id, h.serials, sink, 0⟩ : Subscriber)], s.sink.closes = true := by
    intro s hs
    rcases List.mem_append.1 hs with hs | hs
    · exact hk.closing s (hleft s hs).1
    · rw [List.mem_singleton.1 hs]
      exact hsink
  have hjoined := hk.books.join id sink 0
  unfold register
  simp only
  split
  · next hnone =>
    have habsent : ∀ s ∈ h.subscribers, s.id ≠ id := by simpa using hnone
    have hself : h.subscribers.filter (fun s => !(s.id == id)) = h.subscribers := by
      rw [List.filter_eq_self]
      intro s hs
      simpa using habsent s hs
    refine ⟨?_, hids, hclosing, hk.orders, hk.free⟩
    rw [← hself] at hjoined
    exact hjoined
  · next t hsome =>
    have ht : t ∈ h.subscribers := List.mem_of_find?_eq_some hsome
    have hid : t.id = id := by simpa using List.find?_some hsome
    have hnew : h.serials ≠ t.serial := (Nat.ne_of_lt (hk.books.born t ht)).symm
    have hbooks := hjoined.leave t.serial
    rw [List.filter_append, ← hk.filter_id ht, hid] at hbooks
    simp only [close, note, hk.close_free ht, Bool.false_eq_true, if_false]
    refine ⟨?_, hids, hclosing, hk.orders, rfl⟩
    rw [List.filter_cons_of_pos (by simpa using hnew), List.filter_nil] at hbooks
    exact hbooks

theorem handAll_kept (hk : h.Kept Nobody) (e : Envelope) :
    ((h.note (.dispatched e)).handAll e.toJson).Kept
      (· ∈ (h.subscribers.filter fun s => !takes h.timeLimit s).map (·.id)) := by
  refine ⟨(hk.books.hand e (takes h.timeLimit)).weaken ?_, ?_, ?_, hk.orders, hk.free⟩
  · rintro t _ ⟨s, hs, hok, hid⟩
    exact List.mem_map.2 ⟨s, by simp [hs, hok], hid⟩
  · simpa [handAll, note, Function.comp_def] using hk.ids
  · intro t ht
    obtain ⟨s, hs, rfl⟩ := List.mem_map.1 ht
    exact hk.closing s hs

theorem broadcast_kept (hk : h.Kept Nobody) (e : Envelope) : (h.broadcast e).1.Kept Nobody := by
  have hall := removeAll_kept (handAll_kept hk e)
  unfold broadcast
  simp only
  split
  · exact hall
  · exact { hall with }

/-- The first of those who are left is closed after the loop. -/
theorem goodbye_kept (hk : h.Kept doomed) {s : Subscriber} {rest : List Subscriber}
    (hs : h.subscribers = s :: rest) :
    ({ h with subscribers := rest }.close s).Kept doomed := by
  have hmem : s ∈ h.subscribers := by
    rw [hs]
    exact List.mem_cons_self
  have hleft : rest ⊆ h.subscribers := by
    rw [hs]
    exact List.subset_cons_self s rest
  have hids := hk.ids
  have hserials := hk.books.serials
  have hbooks := hk.books.leave s.serial
  rw [hs, List.map_cons, List.nodup_cons] at hids hserials
  have hrest : rest.filter (·.serial ≠ s.serial) = rest := by
    rw [List.filter_eq_self]
    intro t ht
    simp only [ne_eq, decide_eq_true_eq]
    exact fun heq => hserials.1 (List.mem_map.2 ⟨t, ht, heq⟩)
  rw [hs, List.filter_cons_of_neg (by simp), hrest] at hbooks
  exact ⟨hbooks, hids.2, fun t ht => hk.closing t (hleft ht), hk.orders, hk.close_free hmem⟩

theorem finish_kept (hk : h.Kept doomed) : h.finish.Kept doomed :=
  { hk with orders := fun id sink hmem => by cases hmem }

theorem shut_kept (hk : h.Kept doomed) (b : Branch) : (h.shut b).Kept doomed := by
  obtain ⟨loopOver, heq⟩ := shut_same h b
  rw [heq]
  exact { hk with }

theorem obey_kept (hk : h.Kept Nobody) {c : Control}
    (hc : ∀ id sink, c = .register id sink → sink.closes = true) : (h.obey c).Kept Nobody := by
  cases c with
  | register id sink => exact register_kept hk id (hc id sink rfl)
  | unregister id =>
    have hrest := remove_kept hk id
    exact { hrest with books := hrest.books.weaken fun s _ hd => hd.1 }
  | count => exact { hk with books := hk.books.counted _ }

theorem Pops.kept {g : Hub} {b : Branch} {e : Envelope} (hp : h.Pops b e g)
    (hk : h.Kept doomed) : g.Kept doomed := by
  cases hp <;> exact { hk with }

/-- Every turn keeps the invariant. -/
theorem step_kept (hk : h.Kept Nobody) (b : Branch) : (h.step b).Kept Nobody := by
  have hturn := h.step_turns b
  generalize h.step b = h' at *
  cases hturn with
  | idle _ => exact hk
  | signal _ => exact { hk with }
  | goodbye _ hs => exact goodbye_kept hk hs
  | last _ _ => exact finish_kept hk
  | @control c rest _ hcontrol =>
    have hk' : { h with control := rest }.Kept Nobody := by
      refine { hk with orders := fun id sink hmem => hk.orders id sink ?_ }
      rw [hcontrol]
      exact List.mem_cons_of_mem _ hmem
    refine obey_kept hk' fun id sink heq => hk.orders id sink ?_
    rw [hcontrol, heq]
    exact List.mem_cons_self
  | value _ hp => exact broadcast_kept (hp.kept hk) _
  | empty _ _ _ => exact shut_kept hk b

theorem offer_kept (hk : h.Kept Nobody) {i : Item}
    (hi : ∀ id sink, i = .control (.register id sink) → sink.closes = true) :
    (h.offer i).2.Kept Nobody := by
  unfold offer
  split
  · exact hk
  · split
    · exact hk
    · cases i with
      | control c =>
        refine { hk with orders := fun id sink hmem => ?_ }
        rcases List.mem_append.1 hmem with hmem | hmem
        · exact hk.orders id sink hmem
        · exact hi id sink (by rw [List.mem_singleton.1 hmem])
      | chat m => exact { hk with }
      | roster r => exact { hk with }
      | server t => exact { hk with }

theorem move_kept (hk : h.Kept Nobody) {m : Move}
    (hm : ∀ id sink, m = .offer (.control (.register id sink)) → sink.closes = true) :
    (h.move m).Kept Nobody := by
  cases m with
  | offer item =>
    simp only [move]
    split
    · exact hk
    · exact offer_kept hk fun id sink heq => hm id sink (by rw [heq])
  | turn b => exact step_kept hk b
  | lend b =>
    simp only [move, lend]
    split <;> exact { hk with }
  | signal | hangUp | release b => exact { hk with }

theorem moves_kept (hk : h.Kept Nobody) {ms : List Move} (hms : Obliging ms) :
    (h.moves ms).Kept Nobody := by
  induction ms generalizing h with
  | nil => exact hk
  | cons m ms ih =>
    refine ih (move_kept hk fun id sink heq => hms id sink ?_) fun id sink hmem =>
      hms id sink (List.mem_cons_of_mem _ hmem)
    rw [heq]
    exact List.mem_cons_self

/-- What every move keeps is kept by a run. -/
theorem moves_keep {P : Hub → Prop} (hmove : ∀ h m, h.Kept Nobody → P h → P (h.move m))
    (hk : h.Kept Nobody) (hp : P h) {ms : List Move} (hms : Obliging ms) : P (h.moves ms) := by
  induction ms generalizing h with
  | nil => exact hp
  | cons m ms ih =>
    refine ih (move_kept hk fun id sink heq => hms id sink ?_) (hmove h m hk hp)
      fun id sink hmem => hms id sink (List.mem_cons_of_mem _ hmem)
    rw [heq]
    exact List.mem_cons_self

/-- The invariant holds after every run. -/
theorem run_kept (timeLimit : Nat) (counting : Bool) {ms : List Move} (hms : Obliging ms) :
    (run timeLimit counting ms).Kept Nobody :=
  moves_kept (fresh_kept timeLimit counting) hms

end Keeping

end Hub

end VoiceRelay
