import VoiceRelay.Proofs.HubRuns

/-!
# Every subscriber gets every event

A registration that is in the set is handed every event that is dispatched until it leaves, each once
and in the order of dispatch. What becomes of other registrations makes no difference to it.

**Results.**

- `broadcast_subscribers`, `handedTo_broadcast`: a broadcast hands its text to everyone, and those who
  take it stay.
- `step_holds`: what makes a subscriber leave in a turn.
- `fan_out`: what is handed to a registration is what is dispatched while it is in the set.
-/

namespace VoiceRelay

namespace Hub

section Defs

/-- A registration stands in the set. -/
def Holds (h : Hub) (n : Nat) : Prop := ∃ s ∈ h.subscribers, s.serial = n

/-- What makes a subscriber leave in a turn: the text handed to it is not accepted, its id is
unregistered or registered again, or the loop is over and it is the next to be closed. -/
inductive Leaves (h : Hub) (s : Subscriber) : Branch → Prop
  | failed {b : Branch} {text : String} :
      (handedTo s.serial (h.step b).history).getLast? = some (text, false) → Leaves h s b
  | unregistered {rest : List Control} : h.control = .unregister s.id :: rest → Leaves h s .control
  | replaced {sink : Sink} {rest : List Control} : h.control = .register s.id sink :: rest →
      Leaves h s .control
  | left {rest : List Subscriber} : h.loopOver = true → h.subscribers = s :: rest → Leaves h s .farewell

end Defs

section Leaving

variable (h : Hub)

theorem register_subscribers (id : SubscriberId) (sink : Sink) :
    (h.register id sink).subscribers =
      h.subscribers.filter (fun t => !(t.id == id)) ++ [⟨id, h.serials, sink, 0⟩] := by
  unfold register
  simp only
  split
  · rfl
  · split <;> rfl

theorem remove_subscribers (id : SubscriberId) :
    (h.remove id).subscribers = h.subscribers.filter (fun t => !(t.id == id)) := by
  unfold remove
  split
  · next hnone =>
    symm
    rw [List.filter_eq_self]
    intro s hs
    simpa using List.find?_eq_none.1 hnone s hs
  · simp only
    split <;> rfl

theorem handedTo_register (n : Nat) (id : SubscriberId) (sink : Sink) :
    handedTo n (h.register id sink).history = handedTo n h.history := by
  unfold register
  simp only
  split
  · rfl
  · split <;> rfl

theorem handedTo_remove (n : Nat) (id : SubscriberId) :
    handedTo n (h.remove id).history = handedTo n h.history := by
  unfold remove
  split
  · rfl
  · simp only
    split <;> rfl

theorem handedTo_removeAll (n : Nat) (ids : List SubscriberId) :
    handedTo n (h.removeAll ids).history = handedTo n h.history := by
  induction ids generalizing h with
  | nil => rfl
  | cons id ids ih =>
    unfold removeAll
    split
    · rfl
    · rw [ih, handedTo_remove]

variable {h} {s : Subscriber}

/-- A hub that is stuck removes no one, and so it stays stuck. -/
theorem free_of_removeAll {ids : List SubscriberId} (hfree : (h.removeAll ids).stuck = false) :
    h.stuck = false := by
  cases ids with
  | nil => exact hfree
  | cons id ids =>
    rw [← Bool.not_eq_true]
    intro hstuck
    rw [removeAll, if_pos hstuck, hstuck] at hfree
    cases hfree

theorem removeAll_subscribers {ids : List SubscriberId} (hfree : (h.removeAll ids).stuck = false) :
    (h.removeAll ids).subscribers = h.subscribers.filter (·.id ∉ ids) := by
  induction ids generalizing h with
  | nil => simp [removeAll]
  | cons id ids ih =>
    have hnow := free_of_removeAll hfree
    rw [removeAll, hnow, if_neg Bool.false_ne_true] at hfree ⊢
    rw [ih hfree, remove_subscribers, List.filter_filter]
    apply List.filter_congr
    intro s _
    by_cases hid : s.id = id <;> simp [hid]

/-- What a broadcast comes to, but for the counts. -/
theorem broadcast_eq (h : Hub) (e : Envelope) :
    (h.broadcast e).1.subscribers = (((h.note (.dispatched e)).handAll e.toJson).removeAll
        ((h.subscribers.filter fun s => !takes h.timeLimit s).map (·.id))).subscribers ∧
      (h.broadcast e).1.history = (((h.note (.dispatched e)).handAll e.toJson).removeAll
        ((h.subscribers.filter fun s => !takes h.timeLimit s).map (·.id))).history := by
  unfold broadcast
  simp only
  split
  all_goals exact ⟨rfl, rfl⟩

/-- A broadcast that comes to its end has removed everyone that it set out to remove. -/
theorem broadcast_free {e : Envelope} (hfree : (h.broadcast e).1.stuck = false) :
    (((h.note (.dispatched e)).handAll e.toJson).removeAll
      ((h.subscribers.filter fun s => !takes h.timeLimit s).map (·.id))).stuck = false := by
  unfold broadcast at hfree
  simp only at hfree
  split at hfree
  all_goals exact hfree

/-- An id stands for one subscriber, so it is among the ids of those chosen if that one is chosen. -/
theorem id_mem_filter {subs : List Subscriber} (hids : (subs.map (·.id)).Nodup) (hs : s ∈ subs)
    (p : Subscriber → Bool) : s.id ∈ (subs.filter p).map (·.id) ↔ p s = true := by
  rw [List.mem_map]
  constructor
  · rintro ⟨t, ht, hid⟩
    rw [List.mem_filter] at ht
    rw [← List.inj_on_of_nodup_map hids ht.1 hs hid]
    exact ht.2
  · intro hp
    exact ⟨s, List.mem_filter.2 ⟨hs, hp⟩, rfl⟩

/-- Those who take the text of a broadcast stay. -/
theorem broadcast_subscribers {e : Envelope} (hids : (h.subscribers.map (·.id)).Nodup)
    (hfree : (h.broadcast e).1.stuck = false) :
    (h.broadcast e).1.subscribers =
      (h.subscribers.filter (takes h.timeLimit)).map fun s =>
        { s with attempts := s.attempts + 1 } := by
  rw [(broadcast_eq h e).1, removeAll_subscribers (broadcast_free hfree)]
  simp only [handAll, note, List.filter_map]
  congr 1
  apply List.filter_congr
  intro s hs
  simp only [Function.comp_apply, id_mem_filter hids hs]
  cases takes h.timeLimit s <;> rfl

/-- A broadcast hands its text to everyone in the set. -/
theorem handedTo_broadcast (h : Hub) (e : Envelope) (n : Nat) :
    handedTo n (h.broadcast e).1.history =
      handedTo n h.history ++
        (h.subscribers.filter (·.serial = n)).map fun s => (e.toJson, takes h.timeLimit s) := by
  rw [(broadcast_eq h e).2, handedTo_removeAll]
  simp only [handAll, note]
  rw [handedTo_handAll, handedTo_dispatched]

/-- A broadcast hands the text to everyone in the set, and those who take it stay. -/
theorem broadcast_holds (hk : h.Kept Nobody) (e : Envelope) (hs : s ∈ h.subscribers) :
    ((h.broadcast e).1.Holds s.serial ↔ takes h.timeLimit s = true) ∧
      handedTo s.serial (h.broadcast e).1.history =
        handedTo s.serial h.history ++ [(e.toJson, takes h.timeLimit s)] := by
  refine ⟨?_, ?_⟩
  · unfold Holds
    rw [broadcast_subscribers hk.ids (broadcast_kept hk e).free]
    constructor
    · rintro ⟨t, ht, hserial⟩
      obtain ⟨t', ht', rfl⟩ := List.mem_map.1 ht
      obtain ⟨hmem, htakes⟩ := List.mem_filter.1 ht'
      have heq : t' = s := hk.books.eq_of_serial hmem hs hserial
      rw [← heq]
      exact htakes
    · intro htakes
      exact ⟨_, List.mem_map.2 ⟨s, List.mem_filter.2 ⟨hs, htakes⟩, rfl⟩, rfl⟩
  · rw [handedTo_broadcast, hk.books.filter_of_mem hs]
    rfl

/-- Nothing was refused by a subscriber that is in the set. -/
theorem Kept.no_refusal (hk : h.Kept Nobody) (hs : s ∈ h.subscribers) (text : String) :
    (handedTo s.serial h.history).getLast? ≠ some (text, false) := by
  intro hlast
  have hok := hk.books.clean s hs id _ (List.mem_of_getLast? hlast)
  cases hok

/-- Which subscribers a control command leaves in the set. -/
theorem obey_holds (hk : h.Kept Nobody) (hs : s ∈ h.subscribers) (c : Control) :
    ((h.obey c).Holds s.serial ↔
        c ≠ .unregister s.id ∧ ∀ sink, c ≠ .register s.id sink) ∧
      handedTo s.serial (h.obey c).history = handedTo s.serial h.history := by
  have hfilter : ∀ id, (∃ t ∈ h.subscribers.filter (fun t => !(t.id == id)),
      t.serial = s.serial) ↔ s.id ≠ id := by
    intro id
    constructor
    · rintro ⟨t, ht, hserial⟩
      obtain ⟨hmem, hne⟩ := List.mem_filter.1 ht
      rw [← hk.books.eq_of_serial hmem hs hserial]
      simpa using hne
    · intro hne
      exact ⟨s, List.mem_filter.2 ⟨hs, by simpa using hne⟩, rfl⟩
  cases c with
  | register id sink =>
    refine ⟨?_, handedTo_register h _ id sink⟩
    have hnew : h.serials ≠ s.serial := (Nat.ne_of_lt (hk.books.born s hs)).symm
    have hiff := hfilter id
    unfold Holds obey
    simp only [register_subscribers, List.mem_append, List.mem_singleton, or_and_right, exists_or,
      exists_eq_left, hiff, hnew, or_false]
    constructor
    · intro hne
      exact ⟨by simp, fun _ heq => hne (by cases heq; rfl)⟩
    · rintro ⟨-, hne⟩ rfl
      exact hne sink rfl
  | unregister id =>
    refine ⟨?_, handedTo_remove h _ id⟩
    have hiff := hfilter id
    unfold Holds obey
    simp only [remove_subscribers, hiff]
    constructor
    · intro hne
      exact ⟨fun heq => hne (by cases heq; rfl), by simp⟩
    · rintro ⟨hne, -⟩ rfl
      exact hne rfl
  | count =>
    refine ⟨?_, rfl⟩
    simp only [ne_eq, reduceCtorEq, not_false_eq_true, implies_true, and_self, iff_true]
    exact ⟨s, hs, rfl⟩

/-- A turn on a queue of values: who takes the text stays. -/
theorem value_holds {g : Hub} {b : Branch} {e : Envelope} (hp : h.Pops b e g)
    (hk : g.Kept Nobody) (hs : s ∈ g.subscribers) (hstep : h.step b = (g.broadcast e).1) :
    (h.step b).Holds s.serial ↔ ¬ h.Leaves s b := by
  obtain ⟨hholds, hhanded⟩ := broadcast_holds hk e hs
  rw [hstep, hholds]
  constructor
  · intro htakes hleaves
    cases hleaves with
    | failed hlast =>
      rw [hstep, hhanded, List.getLast?_concat, htakes] at hlast
      cases hlast
    | unregistered _ | replaced _ | left _ _ => cases hp
  · intro hstays
    by_contra hno
    have hlast : (handedTo s.serial (h.step b).history).getLast? = some (e.toJson, false) := by
      rw [hstep, hhanded, List.getLast?_concat, Bool.eq_false_iff.2 hno]
    exact hstays (Leaves.failed hlast)

/-- A turn on a queue that is empty: all stay. -/
theorem empty_holds {b : Branch} (hk : h.Kept Nobody) (hs : s ∈ h.subscribers)
    (hstep : h.step b = h.shut b) (hb : b ∈ queues) (hq : h.isEmpty b = true) :
    (h.step b).Holds s.serial ↔ ¬ h.Leaves s b := by
  obtain ⟨loopOver, heq⟩ := shut_same h b
  rw [hstep, heq]
  refine ⟨fun _ hleaves => ?_, fun _ => ⟨s, hs, rfl⟩⟩
  cases hleaves with
  | failed hlast =>
    rw [hstep, heq] at hlast
    exact hk.no_refusal hs _ hlast
  | unregistered hc | replaced hc =>
    rw [isEmpty, hc] at hq
    cases hq
  | left _ _ => exact absurd hb (by decide)

/-- A turn on the signal: all stay until they are closed. -/
theorem quit_holds (hk : h.Kept Nobody) (hs : s ∈ h.subscribers)
    (hstep : h.step .signal = h.quit) :
    (h.step .signal).Holds s.serial ↔ ¬ h.Leaves s .signal := by
  rw [hstep]
  refine ⟨fun _ hleaves => ?_, fun _ => ⟨s, hs, rfl⟩⟩
  cases hleaves with
  | failed hlast =>
    rw [hstep] at hlast
    exact hk.no_refusal hs _ hlast

/-- A turn after the loop: the first of those in the set leaves it. -/
theorem goodbye_holds {t : Subscriber} {rest : List Subscriber} (hk : h.Kept Nobody)
    (hover : h.loopOver = true) (ht : h.subscribers = t :: rest) (hs : s ∈ h.subscribers)
    (hstep : h.step .farewell = { h with subscribers := rest }.close t) :
    (h.step .farewell).Holds s.serial ↔ ¬ h.Leaves s .farewell := by
  have hserials := hk.books.serials
  rw [ht, List.map_cons, List.nodup_cons] at hserials
  rw [hstep]
  constructor
  · rintro ⟨s', hs', hserial⟩ hleaves
    cases hleaves with
    | failed hlast =>
      rw [hstep] at hlast
      exact hk.no_refusal hs _ hlast
    | left _ hfirst =>
      rw [ht] at hfirst
      rw [(List.cons.inj hfirst).1] at hserials
      exact hserials.1 (List.mem_map.2 ⟨s', hs', hserial⟩)
  · intro hstays
    rw [ht] at hs
    rcases List.mem_cons.1 hs with rfl | hs
    · exact absurd (Leaves.left hover ht) hstays
    · exact ⟨s, hs, rfl⟩

/-- A turn on the control queue: all stay but the one whose id is unregistered or registered again. -/
theorem control_holds {c : Control} {rest : List Control} (hk : h.Kept Nobody)
    (hs : s ∈ h.subscribers) (hc : h.control = c :: rest)
    (hstep : h.step .control = { h with control := rest }.obey c) :
    (h.step .control).Holds s.serial ↔ ¬ h.Leaves s .control := by
  have hk' : { h with control := rest }.Kept Nobody :=
    { hk with orders := fun id sink hmem => hk.orders id sink (by
        rw [hc]
        exact List.mem_cons_of_mem _ hmem) }
  obtain ⟨hholds, hhanded⟩ := obey_holds hk' hs c
  rw [hstep, hholds]
  constructor
  · rintro ⟨hun, hre⟩ hleaves
    cases hleaves with
    | failed hlast =>
      rw [hstep, hhanded] at hlast
      exact hk.no_refusal hs _ hlast
    | unregistered hc' =>
      rw [hc] at hc'
      exact hun (List.cons.inj hc').1
    | replaced hc' =>
      rw [hc] at hc'
      exact hre _ (List.cons.inj hc').1
  · intro hstays
    refine ⟨?_, ?_⟩
    · rintro rfl
      exact hstays (Leaves.unregistered hc)
    · rintro sink rfl
      exact hstays (Leaves.replaced hc)

theorem loopOver_of_farewell (hready : h.ready .farewell = true) : h.loopOver = true := by
  simp only [ready, if_true, Bool.and_eq_true] at hready
  exact hready.2

/-- **Who leaves in a turn.** A subscriber stays in the set unless its text is not accepted, its id
is unregistered or registered again, or it is the next to be closed after the loop. -/
theorem step_holds (hk : h.Kept Nobody) (hs : s ∈ h.subscribers) {b : Branch}
    (hready : h.ready b = true) : (h.step b).Holds s.serial ↔ ¬ h.Leaves s b := by
  have hturn := h.step_turns b
  generalize hstep : h.step b = h' at hturn
  cases hturn with
  | idle hnot =>
    rw [hready] at hnot
    cases hnot
  | signal _ =>
    rw [← hstep]
    exact quit_holds hk hs hstep
  | goodbye _ ht =>
    rw [← hstep]
    exact goodbye_holds hk (loopOver_of_farewell hready) ht hs hstep
  | last _ hnone =>
    rw [hnone] at hs
    cases hs
  | control _ hc =>
    rw [← hstep]
    exact control_holds hk hs hc hstep
  | value _ hp =>
    obtain ⟨hsubs, -, -⟩ := hp.same
    rw [← hstep]
    exact value_holds hp (hp.kept hk) (by rw [hsubs]; exact hs) hstep
  | empty hb _ hq =>
    rw [← hstep]
    exact empty_holds hk hs hstep hb hq

end Leaving

section Delivery

variable {h : Hub}

theorem Kept.holds_iff (hk : h.Kept Nobody) (n : Nat) :
    h.Holds n ↔ isOpen n h.history = true := (hk.books.present n).symm

/-- A registration in the set has accepted every text that is due to it. -/
theorem Kept.handed_eq (hk : h.Kept Nobody) {n : Nat} (hn : h.Holds n) :
    handedTo n h.history = (due n h.history).map fun e => (e.toJson, true) := by
  obtain ⟨s, hs, rfl⟩ := hn
  have hclean := hk.books.clean s hs id
  have htexts := hk.books.texts s.serial
  calc handedTo s.serial h.history
      = (handedTo s.serial h.history).map fun x => (x.1, true) := by
        conv_lhs => rw [← List.map_id (handedTo s.serial h.history)]
        exact List.map_congr_left fun x hx => Prod.ext rfl (hclean x hx)
    _ = ((handedTo s.serial h.history).map Prod.fst).map fun text => (text, true) := by
        rw [List.map_map]
        rfl
    _ = (due s.serial h.history).map fun e => (e.toJson, true) := by
        rw [htexts, List.map_map]
        rfl

/-- Over a stretch of a run, all that are in the set from its beginning to its end accept the same
texts, those of the events dispatched in the stretch. -/
theorem stretch (hk : h.Kept Nobody) {more : List Move} (hmore : Obliging more) :
    ∃ es, dispatchedIn (h.moves more).history = dispatchedIn h.history ++ es ∧
      ∀ n, h.Holds n → (h.moves more).Holds n →
        handedTo n (h.moves more).history =
          handedTo n h.history ++ es.map fun e => (e.toJson, true) := by
  have hk' := moves_kept hk hmore
  obtain ⟨deeds, hdeeds, -, hnew⟩ := moves_grows h more
  refine ⟨dispatchedIn deeds, by rw [hdeeds, dispatchedIn_append], ?_⟩
  intro n hn hn'
  have hborn : ∀ id, Deed.registered n id ∉ deeds := by
    intro id hmem
    obtain ⟨s, hs, rfl⟩ := hn
    have hlt := hk.books.born s hs
    have hle := hnew _ id hmem
    omega
  have hopen := (hk'.holds_iff n).1 hn'
  rw [hk'.handed_eq hn', hk.handed_eq hn, ← List.map_append]
  rw [hdeeds] at hopen ⊢
  rw [(due_append hborn hopen).2]

/-- **Fan-out.** In every run in which closing a sink ends: what is handed to a registration is the
texts of the events dispatched while it is in the set, each once and in this order, and all of them
but possibly the last are accepted. It is in the set from the turn that registers it to the turn in
which a text is not accepted, its id is unregistered or registered again, or it is closed after the loop.
Any two that are in the set over the same stretch of the run are handed the same texts. -/
theorem fan_out (timeLimit : Nat) (counting : Bool) (ms : List Move) (hms : Obliging ms) :
    let h := run timeLimit counting ms
    (∀ n, (handedTo n h.history).map Prod.fst = (due n h.history).map Envelope.toJson ∧
        (∀ x ∈ (handedTo n h.history).dropLast, x.2 = true) ∧
        (h.Holds n ↔ isOpen n h.history = true)) ∧
      (∀ id sink rest, h.ready .control = true → h.control = .register id sink :: rest →
        ⟨id, h.serials, sink, 0⟩ ∈ (h.step .control).subscribers ∧ ¬ h.Holds h.serials) ∧
      (∀ s ∈ h.subscribers, ∀ b, h.ready b = true →
        ((h.step b).Holds s.serial ↔ ¬ h.Leaves s b)) ∧
      ∀ more, Obliging more →
        ∃ es, dispatchedIn (h.moves more).history = dispatchedIn h.history ++ es ∧
          ∀ n, h.Holds n → (h.moves more).Holds n →
            handedTo n (h.moves more).history =
              handedTo n h.history ++ es.map fun e => (e.toJson, true) := by
  intro h
  have hk : h.Kept Nobody := run_kept timeLimit counting hms
  refine ⟨fun n => ⟨hk.books.texts n, hk.books.accepted n, hk.holds_iff n⟩, ?_, ?_, ?_⟩
  · intro id sink rest hready hc
    have hstep : h.step .control = { h with control := rest }.register id sink := by
      simp [step, hready, hc, obey]
    refine ⟨?_, ?_⟩
    · rw [hstep, register_subscribers]
      simp
    · rintro ⟨s, hs, hserial⟩
      exact Nat.ne_of_lt (hk.books.born s hs) hserial
  · intro s hs b hready
    exact step_holds hk hs hready
  · intro more hmore
    exact stretch hk hmore

/-- Of two sinks the second takes its first text only: it is handed two, the other all three. -/
theorem fan_out_one_stalls :
    let steady : Sink := ⟨fun _ => .accepts 0, true⟩
    let faltering : Sink := ⟨fun n => if n = 0 then .accepts 0 else .stalls, true⟩
    let ms : List Move := [.offer (.control (.register ⟨1⟩ steady)), .turn .control,
      .offer (.control (.register ⟨2⟩ faltering)), .turn .control, .offer (.server "a"),
      .turn .server, .offer (.server "b"), .offer (.server "c"), .turn .server, .turn .server]
    let h := run 5 false ms
    Obliging ms ∧ (handedTo 0 h.history).map Prod.snd = [true, true, true] ∧
      (handedTo 1 h.history).map Prod.snd = [true, false] ∧
      (handedTo 0 h.history).map Prod.fst = (due 0 h.history).map Envelope.toJson ∧
      due 1 h.history = [.server "a", .server "b"] := by
  intro steady faltering ms h
  have hms : Obliging ms := by
    intro id sink hmem
    simp only [ms, List.mem_cons, List.not_mem_nil, reduceCtorEq, false_or, or_false,
      Move.offer.injEq, Item.control.injEq, Control.register.injEq] at hmem
    rcases hmem with ⟨-, rfl⟩ | ⟨-, rfl⟩
    all_goals rfl
  refine ⟨hms, by decide +kernel, by decide +kernel, ?_, by decide +kernel⟩
  exact ((fan_out 5 false ms hms).1 0).1

end Delivery

end Hub

end VoiceRelay
