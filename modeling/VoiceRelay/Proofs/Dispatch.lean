import VoiceRelay.Proofs.Isolation

/-!
# What is put into a queue is dispatched once

Producers put items into four queues, each of which is given up by its senders at a time of its own.
The loop takes items from the heads of the queues and stops polling a queue once it is empty and
deserted. So it dispatches the items of each queue in the order in which they were accepted, and none
twice; and without the signal to stop it goes on until every queue is deserted and all that was
accepted is dispatched.

**Design.** `taken` and `admitted` tell what a move takes from the queues and puts into them. `Flow`
relates a hub to all that was taken and admitted before: what was admitted to a queue is what was taken
from it and what still stands in it, until the loop ends. A queue that is not polled any more is
deserted and empty, so nothing can be put into it later.

**Results.**

- `step_history`: what a turn writes into the history, apart from closings.
- `move_flow`, `moves_flow`: every move keeps the flow.
- `dispatched_once`: what is dispatched from a queue, and when the loop ends by itself.
-/

namespace VoiceRelay

namespace Hub

section Defs

/-- The event that an item is sent as; a control command is none. -/
def Item.envelope? : Item → Option Envelope
  | .control _ => none
  | .chat m => some (.chat m)
  | .roster r => some (.roster r)
  | .server t => some (.server t)

/-- The items of one queue. -/
def itemsOf (b : Branch) (items : List Item) : List Item := items.filter fun i => i.branch = b

/-- What stands in a queue, head first. -/
def waiting (h : Hub) : Branch → List Item
  | .control => h.control.map .control
  | .chat => h.chats.map .chat
  | .roster => h.rosters.map .roster
  | .server => h.lines.map .server
  | .signal | .farewell => []

/-- What a move takes from the queues: a turn takes the head of its queue. -/
def taken (h : Hub) : Move → List Item
  | .turn b => if h.ready b then (h.waiting b).take 1 else []
  | _ => []

/-- What a move puts into the queues: an item that is offered and accepted. -/
def admitted (h : Hub) : Move → List Item
  | .offer item =>
    if h.deserted item.branch then []
    else match (h.offer item).1 with
      | .ok true => [item]
      | _ => []
  | _ => []

/-- What the loop takes from its queues in a run, in this order. -/
def takenIn (h : Hub) : List Move → List Item
  | [] => []
  | m :: ms => h.taken m ++ takenIn (h.move m) ms

/-- What the queues accept in a run, in this order. -/
def admittedIn (h : Hub) : List Move → List Item
  | [] => []
  | m :: ms => h.admitted m ++ admittedIn (h.move m) ms

/-- Dispatches an item. -/
def serve (h : Hub) (item : Item) : Hub :=
  match item with
  | .control c => h.obey c
  | .chat m => (h.broadcast (.chat m)).1
  | .roster r => (h.broadcast (.roster r)).1
  | .server t => (h.broadcast (.server t)).1

/-- The hub without the item at the head of a queue. -/
def behead (h : Hub) (b : Branch) : Hub :=
  match b with
  | .control => { h with control := h.control.tail }
  | .chat => { h with chats := h.chats.tail }
  | .roster => { h with rosters := h.rosters.tail }
  | .server => { h with lines := h.lines.tail }
  | .signal | .farewell => h

/-- What a turn takes from its queue and what it comes to. -/
inductive Dispatches (h : Hub) : Branch → List Item → Hub → Prop
  | idle {b : Branch} : h.ready b = false → Dispatches h b [] h
  | signal : h.ready .signal = true → Dispatches h .signal [] h.quit
  | goodbye {s : Subscriber} {rest : List Subscriber} : h.ready .farewell = true →
      h.subscribers = s :: rest →
      Dispatches h .farewell [] ({ h with subscribers := rest }.close s)
  | last : h.ready .farewell = true → h.subscribers = [] → Dispatches h .farewell [] h.finish
  | item {b : Branch} {i : Item} {rest : List Item} : h.ready b = true →
      h.waiting b = i :: rest → Dispatches h b [i] ((h.behead b).serve i)
  | empty {b : Branch} : b ∈ queues → h.ready b = true → h.waiting b = [] →
      Dispatches h b [] (h.shut b)

/-- What is written into the history when an item is dispatched, newest first. -/
def deedsOf (h : Hub) (item : Item) : List Deed :=
  match item.envelope? with
  | some e =>
    (h.subscribers.map fun s => Deed.handed s.serial e.toJson (takes h.timeLimit s)).reverse ++
      [.dispatched e]
  | none =>
    match item with
    | .control (.register id _) => [.registered h.serials id]
    | .control .count => [.counted h.subscribers.length]
    | _ => []

/-- Nothing but closings was added to the history. -/
def Closes (h h' : Hub) : Prop := ∃ ns : List Nat, h'.history = ns.map Deed.closed ++ h.history

/-- Queues, senders and signals are the same. -/
structure SameFeed (h h' : Hub) : Prop where
  waiting_eq : ∀ b, h'.waiting b = h.waiting b
  deserted_eq : ∀ b, h'.deserted b = h.deserted b
  open_eq : h'.openBranches = h.openBranches
  signalled_eq : h'.signalled = h.signalled
  loopOver_eq : h'.loopOver = h.loopOver
  ended_eq : h'.ended = h.ended

/-- How what was admitted to the queues and taken from them fits what stands in them. -/
structure Flow (h : Hub) (ins outs : List Item) : Prop where
  order : ∀ b, itemsOf b outs ++ h.waiting b <+: itemsOf b ins
  whole : h.ended = false ∨ h.signalled = false →
    ∀ b, itemsOf b ins = itemsOf b outs ++ h.waiting b
  done : ∀ b ∈ queues, b ∉ h.openBranches → h.deserted b = true ∧ h.waiting b = []
  ending : h.loopOver = true → h.signalled = true ∨ h.openBranches = []
  past : h.ended = true → h.loopOver = true

end Defs

section Taking

variable (h : Hub)

theorem waiting_eq_nil_iff (b : Branch) : h.waiting b = [] ↔ h.isEmpty b = true := by
  cases b <;> simp [isEmpty, waiting]

theorem waiting_behead_self (b : Branch) : (h.behead b).waiting b = (h.waiting b).tail := by
  cases b <;> simp [behead, waiting]

theorem waiting_behead_of_ne {b c : Branch} (hne : c ≠ b) :
    (h.behead b).waiting c = h.waiting c := by
  cases b <;> cases c <;> first | rfl | exact (hne rfl).elim

/-- What stands in a queue is meant for it. -/
theorem branch_of_waiting {b : Branch} {i : Item} (hi : i ∈ h.waiting b) : i.branch = b := by
  cases b with
  | control | chat | roster | server =>
    obtain ⟨x, -, rfl⟩ := List.mem_map.1 hi
    rfl
  | signal | farewell => cases hi

/-- Taking the head of a queue leaves all but the queues as it is. -/
theorem behead_same (b : Branch) :
    ∃ control chats rosters lines, h.behead b = { h with control, chats, rosters, lines } := by
  cases b <;> exact ⟨_, _, _, _, rfl⟩

/-- A value at the head of its queue is an item there. -/
theorem Pops.item {h g : Hub} {b : Branch} {e : Envelope} (hp : h.Pops b e g) :
    ∃ i rest, h.waiting b = i :: rest ∧ (g.broadcast e).1 = (h.behead b).serve i := by
  cases hp with
  | chat hq => exact ⟨_, _, congrArg (List.map Item.chat) hq, by simp only [behead, hq]; rfl⟩
  | roster hq => exact ⟨_, _, congrArg (List.map Item.roster) hq, by simp only [behead, hq]; rfl⟩
  | server hq => exact ⟨_, _, congrArg (List.map Item.server) hq, by simp only [behead, hq]; rfl⟩

theorem taken_cons {b : Branch} {i : Item} {rest : List Item} (hready : h.ready b = true)
    (hw : h.waiting b = i :: rest) : h.taken (.turn b) = [i] := by
  simp only [taken, hready, if_true, hw, List.take_succ_cons, List.take_zero]

theorem taken_nil {b : Branch} (hw : h.waiting b = []) : h.taken (.turn b) = [] := by
  simp only [taken, hw, List.take_nil, ite_self]

/-- **What a turn can do**: nothing, end the loop at the signal, dispatch the head of its queue, stop
polling a queue that is deserted and empty, or, after the loop, close one of those who are left or end. -/
theorem step_dispatches (b : Branch) : h.Dispatches b (h.taken (.turn b)) (h.step b) := by
  have hturn := h.step_turns b
  generalize h.step b = h' at hturn
  cases hturn with
  | idle hnot =>
    have htaken : h.taken (.turn b) = [] := by simp [taken, hnot]
    rw [htaken]
    exact .idle hnot
  | signal hready =>
    rw [taken_nil h rfl]
    exact .signal hready
  | goodbye hready hs =>
    rw [taken_nil h rfl]
    exact .goodbye hready hs
  | last hready hs =>
    rw [taken_nil h rfl]
    exact .last hready hs
  | @control c rest hready hc =>
    have hw : h.waiting .control = .control c :: rest.map Item.control := by simp [waiting, hc]
    have hpopped : { h with control := rest } = h.behead .control := by simp [behead, hc]
    rw [taken_cons h hready hw, hpopped]
    exact .item hready hw
  | value hready hp =>
    obtain ⟨i, rest, hw, hserve⟩ := hp.item
    rw [taken_cons h hready hw, hserve]
    exact .item hready hw
  | empty hb hready hq =>
    have hw := (waiting_eq_nil_iff h _).2 hq
    rw [taken_nil h hw]
    exact .empty hb hready hw

end Taking

section Writing

variable (h : Hub)

theorem Closes.refl : h.Closes h := ⟨[], rfl⟩

theorem Closes.trans {h₁ h₂ h₃ : Hub} (h : h₁.Closes h₂) (h' : h₂.Closes h₃) : h₁.Closes h₃ := by
  obtain ⟨ns, hns⟩ := h
  obtain ⟨ms, hms⟩ := h'
  exact ⟨ms ++ ns, by rw [hms, hns, List.map_append, List.append_assoc]⟩

theorem remove_closes (id : SubscriberId) : h.Closes (h.remove id) := by
  unfold remove
  split
  · exact .refl h
  · next t _ =>
    simp only
    split
    all_goals exact ⟨[t.serial], rfl⟩

theorem removeAll_closes (ids : List SubscriberId) : h.Closes (h.removeAll ids) := by
  induction ids generalizing h with
  | nil => exact .refl h
  | cons id ids ih =>
    unfold removeAll
    split
    · exact .refl h
    · exact (remove_closes h id).trans (ih _)

theorem shut_closes (b : Branch) : h.Closes (h.shut b) := by
  obtain ⟨loopOver, heq⟩ := shut_same h b
  rw [heq]
  exact .refl h

/-- What obeying a command writes. -/
theorem obey_history (c : Control) :
    ∃ ns : List Nat, (h.obey c).history =
      ns.map Deed.closed ++ (h.deedsOf (.control c) ++ h.history) := by
  cases c with
  | register id sink =>
    simp only [obey, register]
    split
    · exact ⟨[], rfl⟩
    · next t _ =>
      split
      all_goals exact ⟨[t.serial], rfl⟩
  | unregister id => exact remove_closes h id
  | count => exact ⟨[], rfl⟩

/-- What a broadcast writes. -/
theorem broadcast_history (e : Envelope) :
    ∃ ns : List Nat, (h.broadcast e).1.history = ns.map Deed.closed ++
      ((h.subscribers.map fun s => Deed.handed s.serial e.toJson (takes h.timeLimit s)).reverse ++
        .dispatched e :: h.history) := by
  obtain ⟨ns, hns⟩ := removeAll_closes ((h.note (.dispatched e)).handAll e.toJson)
    ((h.subscribers.filter fun s => !takes h.timeLimit s).map (·.id))
  exact ⟨ns, by rw [(broadcast_eq h e).2, hns]; rfl⟩

/-- What dispatching an item writes, apart from closings. -/
theorem serve_history (i : Item) :
    ∃ ns : List Nat,
      (h.serve i).history = ns.map Deed.closed ++ (h.deedsOf i ++ h.history) := by
  cases i with
  | control c => exact obey_history h c
  | chat m | roster r | server t =>
    obtain ⟨ns, hns⟩ := broadcast_history h _
    refine ⟨ns, hns.trans ?_⟩
    simp only [deedsOf, Item.envelope?, List.append_assoc, List.singleton_append]

theorem deedsOf_behead (b : Branch) (i : Item) : (h.behead b).deedsOf i = h.deedsOf i := by
  obtain ⟨control, chats, rosters, lines, heq⟩ := behead_same h b
  rw [heq]
  rfl

/-- **What a turn writes into the history**: what the item it takes calls for, and then closings. -/
theorem step_history (b : Branch) :
    ∃ ns : List Nat, (h.step b).history =
      ns.map Deed.closed ++ ((h.taken (.turn b)).flatMap h.deedsOf ++ h.history) := by
  have hturn := h.step_dispatches b
  generalize h.taken (.turn b) = items at *
  generalize h.step b = h' at *
  cases hturn with
  | idle _ | signal _ | last _ _ => exact ⟨[], rfl⟩
  | @goodbye s _ _ _ => exact ⟨[s.serial], rfl⟩
  | @item _ i _ _ _ =>
    obtain ⟨ns, hns⟩ := serve_history (h.behead b) i
    refine ⟨ns, hns.trans ?_⟩
    obtain ⟨control, chats, rosters, lines, heq⟩ := behead_same h b
    rw [deedsOf_behead, heq, List.flatMap_cons, List.flatMap_nil, List.append_nil]
  | empty _ _ _ => exact shut_closes h b

theorem dispatchedIn_closings (ns : List Nat) (past : List Deed) :
    dispatchedIn (ns.map Deed.closed ++ past) = dispatchedIn past := by
  rw [dispatchedIn_append]
  simp [dispatchedIn, List.filterMap_map]

theorem dispatchedIn_deedsOf (i : Item) (past : List Deed) :
    dispatchedIn (h.deedsOf i ++ past) = dispatchedIn past ++ i.envelope?.toList := by
  rw [dispatchedIn_append]
  congr 1
  cases i with
  | control c => cases c <;> rfl
  | chat m | roster r | server t =>
    simp [deedsOf, Item.envelope?, dispatchedIn, List.filterMap_map]

/-- The events sent in a turn are those among the items it takes. -/
theorem dispatchedIn_step (b : Branch) :
    dispatchedIn (h.step b).history =
      dispatchedIn h.history ++ (h.taken (.turn b)).filterMap Item.envelope? := by
  obtain ⟨ns, hns⟩ := step_history h b
  rw [hns, dispatchedIn_closings]
  have hturn := h.step_dispatches b
  generalize h.taken (.turn b) = items at *
  generalize h.step b = h' at *
  cases hturn with
  | item _ _ =>
    rw [List.flatMap_cons, List.flatMap_nil, List.append_nil, dispatchedIn_deedsOf]
    rw [List.filterMap_cons]
    split <;> simp [*]
  | idle _ | signal _ | goodbye _ _ | last _ _ | empty _ _ _ => simp

end Writing

section Feeding

variable {h h' : Hub}

theorem SameFeed.of_frame (hframe : h'.frame = h.frame) (hcontrol : h'.control = h.control) :
    h.SameFeed h' := by
  simp only [frame, Prod.mk.injEq] at hframe
  obtain ⟨-, hchats, hrosters, hlines, ⟨hgone, hloose⟩, hopen, hsignal, ⟨hover, hended⟩, -⟩ := hframe
  refine ⟨fun b => ?_, fun b => ?_, hopen, hsignal, hover, hended⟩
  · cases b <;> simp [waiting, hcontrol, hchats, hrosters, hlines]
  · simp [deserted, hgone, hloose]

/-- Dispatching an item changes neither queues nor senders nor signals. -/
theorem serve_feed (h : Hub) (i : Item) : h.SameFeed (h.serve i) := by
  cases i with
  | control c =>
    cases c with
    | register id sink =>
      obtain ⟨hframe, hcontrol, -⟩ := register_frame h id sink
      have hsame := SameFeed.of_frame hframe hcontrol
      exact ⟨hsame.waiting_eq, hsame.deserted_eq, hsame.open_eq, hsame.signalled_eq, hsame.loopOver_eq,
        hsame.ended_eq⟩
    | unregister id =>
      have hsilent := remove_silent h id
      exact .of_frame hsilent.frame_eq hsilent.control_eq
    | count => exact ⟨fun _ => rfl, fun _ => rfl, rfl, rfl, rfl, rfl⟩
  | chat m | roster r | server t =>
    obtain ⟨hframe, hcontrol, -⟩ := broadcast_frame h _
    exact .of_frame hframe hcontrol

theorem waiting_push (h : Hub) (i : Item) (b : Branch) :
    (h.push i).waiting b = h.waiting b ++ itemsOf b [i] := by
  cases i <;> cases b <;> simp [push, waiting, itemsOf, Item.branch]

theorem itemsOf_append (b : Branch) (items more : List Item) :
    itemsOf b (items ++ more) = itemsOf b items ++ itemsOf b more := List.filter_append ..

/-- Taking the head of a queue moves it from what waits to what was taken. -/
theorem itemsOf_behead {b : Branch} {i : Item} {rest : List Item} (hw : h.waiting b = i :: rest)
    (outs : List Item) (c : Branch) :
    itemsOf c (outs ++ [i]) ++ (h.behead b).waiting c = itemsOf c outs ++ h.waiting c := by
  have hi : i.branch = b := branch_of_waiting h (by rw [hw]; exact List.mem_cons_self)
  rw [itemsOf_append, List.append_assoc]
  congr 1
  by_cases hc : c = b
  · subst hc
    rw [waiting_behead_self, hw]
    simp [itemsOf, hi]
  · have hne : i.branch ≠ c := fun heq => hc (heq.symm.trans hi)
    rw [waiting_behead_of_ne h hc]
    simp [itemsOf, hne]

end Feeding

section Flowing

variable {h h' : Hub} {ins outs : List Item} {b : Branch}

theorem fresh_flow (timeLimit : Nat) (counting : Bool) : (fresh timeLimit counting).Flow [] [] where
  order c := by cases c <;> exact List.prefix_refl []
  whole _ c := by cases c <;> rfl
  done c hc hnot := absurd hc hnot
  ending hover := by cases hover
  past hended := by cases hended

theorem Flow.congr (hf : h.Flow ins outs) (hs : h.SameFeed h') : h'.Flow ins outs where
  order c := by
    rw [hs.waiting_eq]
    exact hf.order c
  whole hlive c := by
    rw [hs.ended_eq, hs.signalled_eq] at hlive
    rw [hs.waiting_eq]
    exact hf.whole hlive c
  done c hc hnot := by
    rw [hs.open_eq] at hnot
    rw [hs.deserted_eq, hs.waiting_eq]
    exact hf.done c hc hnot
  ending hover := by
    rw [hs.loopOver_eq] at hover
    rw [hs.signalled_eq, hs.open_eq]
    exact hf.ending hover
  past hended := by
    rw [hs.ended_eq] at hended
    rw [hs.loopOver_eq]
    exact hf.past hended

/-- Taking the head of a queue keeps the flow. -/
theorem Flow.behead (hf : h.Flow ins outs) {i : Item} {rest : List Item}
    (hw : h.waiting b = i :: rest) : (h.behead b).Flow ins (outs ++ [i]) := by
  obtain ⟨control, chats, rosters, lines, heq⟩ := behead_same h b
  have hfields : (h.behead b).ended = h.ended ∧ (h.behead b).loopOver = h.loopOver ∧
      (h.behead b).signalled = h.signalled ∧ (h.behead b).openBranches = h.openBranches ∧
        ∀ c, (h.behead b).deserted c = h.deserted c := by
    rw [heq]
    exact ⟨rfl, rfl, rfl, rfl, fun _ => rfl⟩
  obtain ⟨hended, hover', hsignal, hopen, hgone⟩ := hfields
  refine ⟨fun c => ?_, fun hlive c => ?_, fun c hc hnot => ?_, fun hover => ?_, fun hend => ?_⟩
  · rw [itemsOf_behead hw]
    exact hf.order c
  · rw [hended, hsignal] at hlive
    rw [itemsOf_behead hw]
    exact hf.whole hlive c
  · -- A queue that is not polled any more is empty, so it is not the one of the item.
    rw [hopen] at hnot
    obtain ⟨hdeserted, hnil⟩ := hf.done c hc hnot
    have hne : c ≠ b := by
      rintro rfl
      rw [hw] at hnil
      cases hnil
    rw [hgone, waiting_behead_of_ne h hne]
    exact ⟨hdeserted, hnil⟩
  · rw [hover'] at hover
    rw [hsignal, hopen]
    exact hf.ending hover
  · rw [hended] at hend
    rw [hover']
    exact hf.past hend

/-- Once no queue is polled any more, nothing stands in any of them. -/
theorem Flow.waiting_eq_nil (hf : h.Flow ins outs) (hopen : h.openBranches = []) (c : Branch) :
    h.waiting c = [] := by
  have hnot : c ∉ h.openBranches := by simp [hopen]
  cases c with
  | signal | farewell => rfl
  | control | chat | roster | server => exact (hf.done _ (by decide) hnot).2

/-- The end of the loop keeps the flow, if it comes at the signal or when no queue is polled. -/
theorem Flow.quit (hf : h.Flow ins outs) (hend : h.signalled = true ∨ h.openBranches = []) :
    h.quit.Flow ins outs where
  order := hf.order
  whole := hf.whole
  done := hf.done
  ending _ := hend
  past _ := rfl

/-- The end of the hub keeps the flow: what is lost then was put into a queue, and none is lost without
the signal. -/
theorem Flow.finish (hf : h.Flow ins outs) (hover : h.loopOver = true) : h.finish.Flow ins outs := by
  have hnil : ∀ c, h.finish.waiting c = [] := fun c => by cases c <;> rfl
  refine ⟨fun c => ?_, fun hlive c => ?_, fun c hc hnot => ?_, fun _ => hf.ending hover,
    fun _ => hover⟩
  · rw [hnil, List.append_nil]
    exact (List.prefix_append _ _).trans (hf.order c)
  · -- Without the signal the loop ends because no queue is polled: nothing was left in them.
    have hquiet : h.signalled = false := hlive.resolve_left (by simp [Hub.finish])
    have hshut : h.openBranches = [] :=
      (hf.ending hover).resolve_left (by rw [hquiet]; exact Bool.false_ne_true)
    rw [hnil, hf.whole (Or.inr hquiet) c, hf.waiting_eq_nil hshut c]
  · rw [hnil]
    exact ⟨(hf.done c hc hnot).1, rfl⟩

theorem ended_of_ready (hready : h.ready b = true) : h.ended = false := by
  unfold ready at hready
  simp only [Bool.and_eq_true, Bool.not_eq_true'] at hready
  exact hready.1.1

theorem signalled_of_ready (hready : h.ready .signal = true) : h.signalled = true := by
  simp only [ready, reduceCtorEq, if_false, if_true, Bool.and_eq_true] at hready
  exact hready.2.2

/-- A queue on which a turn is taken while it is empty is deserted. -/
theorem deserted_of_ready (hb : b ∈ queues) (hready : h.ready b = true) (hw : h.waiting b = []) :
    h.deserted b = true := by
  have hempty := (waiting_eq_nil_iff h b).1 hw
  obtain ⟨hsignal, hfarewell⟩ := of_mem_queues hb
  unfold ready at hready
  rw [if_neg hfarewell, if_neg hsignal, hempty] at hready
  simp only [Bool.not_true, Bool.false_or, Bool.and_eq_true] at hready
  exact hready.2.2.2

/-- A queue that is deserted and empty need not be polled any more. -/
theorem Flow.shut (hf : h.Flow ins outs) (hlive : h.loopOver = false) (hgone : h.deserted b = true)
    (hw : h.waiting b = []) : (Hub.shut h b).Flow ins outs := by
  have hless : { h with openBranches := h.openBranches.filter (fun c => c != b) }.Flow ins outs := by
    refine ⟨hf.order, hf.whole, fun c hc hnot => ?_, fun hover => ?_, hf.past⟩
    · by_cases hcb : c = b
      · rw [hcb]
        exact ⟨hgone, hw⟩
      · exact hf.done c hc fun hmem => hnot (List.mem_filter.2 ⟨hmem, by simpa using hcb⟩)
    · exact absurd hover (by simp [hlive])
  unfold Hub.shut
  simp only
  split
  · next hnone => exact hless.quit (Or.inr (List.isEmpty_iff.1 hnone))
  · exact hless

/-- **Every turn keeps the flow.** -/
theorem step_flow (hf : h.Flow ins outs) (b : Branch) :
    (h.step b).Flow ins (outs ++ h.taken (.turn b)) := by
  have hturn := h.step_dispatches b
  generalize h.taken (.turn b) = items at *
  generalize h.step b = h' at *
  cases hturn with
  | idle _ => rwa [List.append_nil]
  | signal hready =>
    rw [List.append_nil]
    exact hf.quit (Or.inl (signalled_of_ready hready))
  | goodbye _ _ =>
    rw [List.append_nil]
    exact hf.congr ⟨fun c => by cases c <;> rfl, fun _ => rfl, rfl, rfl, rfl, rfl⟩
  | last hready _ =>
    rw [List.append_nil]
    exact hf.finish (loopOver_of_farewell hready)
  | item _ hw => exact (hf.behead hw).congr (serve_feed _ _)
  | empty hb hready hw =>
    have hlive : h.loopOver = false := live_of_ready (of_mem_queues hb).2 hready
    rw [List.append_nil]
    exact hf.shut hlive (deserted_of_ready hb hready hw) hw

/-- An item that is accepted is put behind those that wait. -/
theorem Flow.push (hf : h.Flow ins outs) (hended : h.ended = false) {i : Item}
    (hlive : h.deserted i.branch = false) : (h.push i).Flow (ins ++ [i]) outs := by
  have hwhole : ∀ c, itemsOf c (ins ++ [i]) = itemsOf c outs ++ (h.push i).waiting c := by
    intro c
    rw [waiting_push, itemsOf_append, hf.whole (Or.inl hended) c, List.append_assoc]
  obtain ⟨control, chats, rosters, lines, heq⟩ := push_same h i
  have hfields : (h.push i).ended = h.ended ∧ (h.push i).loopOver = h.loopOver ∧
      (h.push i).signalled = h.signalled ∧ (h.push i).openBranches = h.openBranches ∧
        ∀ c, (h.push i).deserted c = h.deserted c := by
    rw [heq]
    exact ⟨rfl, rfl, rfl, rfl, fun _ => rfl⟩
  obtain ⟨hpushed, hover', hsignal, hopen, hgone⟩ := hfields
  refine ⟨fun c => ?_, fun _ => hwhole, fun c hc hnot => ?_, fun hover => ?_, fun hend => ?_⟩
  · exact ⟨[], by rw [List.append_nil, hwhole]⟩
  · -- A queue that is not polled any more is deserted, so nobody can have put the item there.
    rw [hopen] at hnot
    obtain ⟨hdeserted, hnil⟩ := hf.done c hc hnot
    have hne : i.branch ≠ c := by
      rintro rfl
      rw [hdeserted] at hlive
      cases hlive
    refine ⟨(hgone c).trans hdeserted, ?_⟩
    rw [waiting_push, hnil]
    simp [itemsOf, hne]
  · rw [hover'] at hover
    rw [hsignal, hopen]
    exact hf.ending hover
  · rw [hpushed, hended] at hend
    cases hend

theorem Flow.signal (hf : h.Flow ins outs) : { h with signalled := true }.Flow ins outs where
  order := hf.order
  whole hlive := hf.whole (hlive.imp_right fun hquiet => absurd hquiet (by simp))
  done := hf.done
  ending _ := Or.inl rfl
  past := hf.past

/-- Senders may come and go as long as no queue that was deserted gets one. -/
theorem Flow.senders (hf : h.Flow ins outs)
    (hsame : ∃ gone senders, h' = { h with sendersGone := gone, loose := senders })
    (hgone : ∀ c, h.deserted c = true → h'.deserted c = true) : h'.Flow ins outs := by
  obtain ⟨gone, senders, rfl⟩ := hsame
  exact ⟨hf.order, hf.whole, fun c hc hnot => ⟨hgone c (hf.done c hc hnot).1, (hf.done c hc hnot).2⟩,
    hf.ending, hf.past⟩

/-- **Every move keeps the flow.** -/
theorem move_flow (hf : h.Flow ins outs) (m : Move) :
    (h.move m).Flow (ins ++ h.admitted m) (outs ++ h.taken m) := by
  cases m with
  | turn b =>
    simp only [admitted, List.append_nil]
    exact step_flow hf b
  | offer i =>
    simp only [move, admitted, taken, List.append_nil]
    split
    · rwa [List.append_nil]
    · next hlive =>
      unfold offer
      split
      · simpa using hf
      · next hended =>
        split
        · simpa using hf
        · exact hf.push (by simpa using hended) (by simpa using hlive)
  | signal =>
    simp only [admitted, taken, List.append_nil]
    exact hf.signal
  | hangUp =>
    simp only [admitted, taken, List.append_nil]
    refine hf.senders ⟨true, h.loose, rfl⟩ fun c hc => ?_
    simp only [deserted, Bool.and_eq_true] at hc
    simp only [deserted, move, hc.2, Bool.and_self]
  | lend b =>
    simp only [admitted, taken, List.append_nil, move, lend]
    split
    · exact hf
    · next hlive =>
      refine hf.senders ⟨h.sendersGone, b :: h.loose, rfl⟩ fun c hc => ?_
      have hne : c ≠ b := by
        rintro rfl
        exact hlive hc
      simpa [deserted, hne] using hc
  | release b =>
    simp only [admitted, taken, List.append_nil]
    refine hf.senders ⟨h.sendersGone, h.loose.erase b, rfl⟩ fun c hc => ?_
    simp only [deserted, Bool.and_eq_true, Bool.not_eq_true', List.contains_eq_mem,
      decide_eq_false_iff_not] at hc
    simp only [deserted, move, release, hc.1, Bool.true_and, Bool.not_eq_true', List.contains_eq_mem,
      decide_eq_false_iff_not]
    exact fun hmem => hc.2 (List.mem_of_mem_erase hmem)

/-- **Runs keep the flow.** -/
theorem moves_flow (hf : h.Flow ins outs) (ms : List Move) :
    (h.moves ms).Flow (ins ++ h.admittedIn ms) (outs ++ h.takenIn ms) := by
  induction ms generalizing h ins outs with
  | nil => simpa [admittedIn, takenIn, moves] using hf
  | cons m ms ih =>
    rw [admittedIn, takenIn, ← List.append_assoc, ← List.append_assoc]
    exact ih (move_flow hf m)

end Flowing

section Law

variable (h : Hub)

/-- Once the hub has ended, nobody is in the set. -/
theorem step_vacant (hvacant : h.ended = true → h.subscribers = []) (b : Branch)
    (hended : (h.step b).ended = true) : (h.step b).subscribers = [] := by
  have hturn := h.step_dispatches b
  generalize h.taken (.turn b) = items at *
  generalize h.step b = h' at *
  cases hturn with
  | idle _ | signal _ => exact hvacant hended
  | last _ hnone => exact hnone
  | goodbye hready _ =>
    have hlive := ended_of_ready hready
    rw [show h.ended = true from hended] at hlive
    cases hlive
  | item hready _ =>
    obtain ⟨control, chats, rosters, lines, heq⟩ := behead_same h b
    rw [(serve_feed _ _).ended_eq, heq] at hended
    rw [ended_of_ready hready] at hended
    cases hended
  | empty _ _ _ =>
    obtain ⟨loopOver, heq⟩ := shut_same h b
    rw [heq] at hended ⊢
    exact hvacant hended

theorem move_vacant (hvacant : h.ended = true → h.subscribers = []) (m : Move) :
    (h.move m).ended = true → (h.move m).subscribers = [] := by
  rcases h.move_cases m with ⟨b, rfl⟩ | ⟨-, _, _, _, _, _, _, _, heq⟩
  · exact step_vacant h hvacant b
  · rw [heq]
    exact hvacant

theorem moves_vacant (hvacant : h.ended = true → h.subscribers = []) (ms : List Move) :
    (h.moves ms).ended = true → (h.moves ms).subscribers = [] := by
  induction ms generalizing h with
  | nil => exact hvacant
  | cons m ms ih => exact ih (h.move m) (move_vacant h hvacant m)

theorem taken_of_ne_turn {m : Move} (hm : ∀ b, m ≠ .turn b) : h.taken m = [] := by
  cases m with
  | turn b => exact absurd rfl (hm b)
  | offer i | signal | hangUp | lend b | release b => rfl

theorem dispatchedIn_move (m : Move) :
    dispatchedIn (h.move m).history =
      dispatchedIn h.history ++ (h.taken m).filterMap Item.envelope? := by
  rcases h.move_cases m with ⟨b, rfl⟩ | ⟨hm, _, _, _, _, _, _, _, heq⟩
  · exact dispatchedIn_step h b
  · rw [heq, taken_of_ne_turn h hm, List.filterMap_nil, List.append_nil]

/-- The events sent in a run are those among the items taken, in their order. -/
theorem dispatchedIn_moves (ms : List Move) :
    dispatchedIn (h.moves ms).history =
      dispatchedIn h.history ++ (h.takenIn ms).filterMap Item.envelope? := by
  induction ms generalizing h with
  | nil => simp [moves, takenIn]
  | cons m ms ih =>
    rw [takenIn, List.filterMap_append, ← List.append_assoc, ← dispatchedIn_move]
    exact ih (h.move m)

theorem step_signalled (b : Branch) : (h.step b).signalled = h.signalled := by
  have hturn := h.step_dispatches b
  generalize h.taken (.turn b) = items at *
  generalize h.step b = h' at *
  cases hturn with
  | idle _ | signal _ | goodbye _ _ | last _ _ => rfl
  | item _ _ =>
    rw [(serve_feed _ _).signalled_eq]
    obtain ⟨control, chats, rosters, lines, heq⟩ := behead_same h b
    rw [heq]
  | empty _ _ _ =>
    obtain ⟨loopOver, heq⟩ := shut_same h b
    rw [heq]

/-- The signal to stop is given by a move, or it is not given. -/
theorem signalled_moves {ms : List Move} (hquiet : Move.signal ∉ ms) :
    (h.moves ms).signalled = h.signalled := by
  induction ms generalizing h with
  | nil => rfl
  | cons m ms ih =>
    refine (ih (h.move m) fun hmem => hquiet (List.mem_cons_of_mem _ hmem)).trans ?_
    cases m with
    | turn b => exact step_signalled h b
    | signal => exact absurd List.mem_cons_self hquiet
    | offer i =>
      obtain ⟨_, _, _, _, heq⟩ := h.offer_same i
      simp only [move, heq]
      split <;> rfl
    | lend b =>
      simp only [move, lend]
      split <;> rfl
    | hangUp | release b => rfl

/-- **Everything accepted is dispatched once and in order.** A turn takes the head of its queue, if
anything, and dispatches it. At any time of any run, what was taken from a queue is a beginning of what
it accepted, and the events sent are those among the items taken. If the signal to stop is not given,
the loop ends only after all four queues are deserted, and then everything that was accepted by a queue
was taken from it. -/
theorem dispatched_once (timeLimit : Nat) (counting : Bool) (ms : List Move) :
    let start := fresh timeLimit counting
    let h := run timeLimit counting ms
    (∀ b, h.Dispatches b (h.taken (.turn b)) (h.step b)) ∧
      (∀ b, itemsOf b (start.takenIn ms) <+: itemsOf b (start.admittedIn ms)) ∧
      dispatchedIn h.history = (start.takenIn ms).filterMap Item.envelope? ∧
      (h.ended = true → Move.signal ∉ ms →
        (∀ b ∈ queues, h.deserted b = true) ∧
          ∀ b, itemsOf b (start.takenIn ms) = itemsOf b (start.admittedIn ms)) := by
  intro start h
  have hflow : h.Flow (start.admittedIn ms) (start.takenIn ms) :=
    moves_flow (fresh_flow timeLimit counting) ms
  refine ⟨h.step_dispatches, fun b => (List.prefix_append _ _).trans (hflow.order b), ?_,
    fun hended hquiet => ?_⟩
  · exact dispatchedIn_moves start ms
  · have hsignal : h.signalled = false := signalled_moves start hquiet
    have hopen : h.openBranches = [] := by
      rcases hflow.ending (hflow.past hended) with hover | hover
      · rw [hsignal] at hover
        cases hover
      · exact hover
    refine ⟨fun b hb => (hflow.done b hb (by simp [hopen])).1, fun b => ?_⟩
    rw [hflow.whole (Or.inr hsignal) b, hflow.waiting_eq_nil hopen b, List.append_nil]

-- A sender of the server's messages outlives the handles: the other queues are shut before.
example :
    let h := run 5 false [.lend .server, .hangUp, .turn .chat, .turn .control, .turn .roster,
      .offer (.chat ⟨"10.0.0.1", "too late", "12:00"⟩), .offer (.server "late"), .release .server,
      .turn .server, .turn .server, .turn .farewell]
    h.ended = true ∧ dispatchedIn h.history = [.server "late"] := by
  decide +kernel

end Law

end Hub

end VoiceRelay
