import VoiceRelay.Proofs.FanOut

/-!
# One subscriber makes no difference to the others

Two runs of the hub whose moves are the same, but for what the sinks of one id do with the texts handed
to them, hand the same texts to all registrations of other ids, keep the same of them in the set, and
take turns on the same branches. So a subscriber that refuses, stalls or is slow costs the others
nothing.

This is so while every sink can be closed. The loop waits for a sink to close, without a limit, when
its subscriber is removed or replaced and at the end; a sink that never finishes closing stops the hub
for everybody.

**Design.** `Alike` relates two hubs that differ at most in what concerns one id. A registration is
known by its number, and `names` tells from the history under which id a number was given. When the
loops are over, those who are left are closed one by one, and the one subscriber may be among them on
one side only; `Near` asks only that the same was handed over then.

**Results.**

- `Alike.register`, `Alike.remove`, `Alike.broadcast`: what the loop does keeps the relation.
- `step_near`, `moves_near`: so does every turn and every run, until the loops are over on both sides.
- `isolation`: the texts handed to the others do not depend on the one.
- `stuck_closing`: a sink that never finishes closing stops the hub for the others.
-/

namespace VoiceRelay

namespace Hub

section Defs

/-- The registrations in a history, each with its number and its id, newest first. -/
def names (past : List Deed) : List (Nat × SubscriberId) :=
  past.filterMap fun
    | .registered n id => some (n, id)
    | _ => none

/-- What the loop decides by and counts, apart from subscribers and control commands. -/
def frame (h : Hub) : Nat × List ChatMessage × List (List Room) × List String ×
    (Bool × List Branch) × List Branch × Bool × (Bool × Bool) × Nat :=
  (h.timeLimit, h.chats, h.rosters, h.lines, (h.sendersGone, h.loose), h.openBranches, h.signalled,
    (h.loopOver, h.ended), h.serials)

/-- The subscribers of all ids but one. -/
def others (x : SubscriberId) (h : Hub) : List Subscriber :=
  h.subscribers.filter fun s => !(s.id == x)

/-- Two control commands that differ at most in the sink registered for one id. -/
inductive Control.Alike (x : SubscriberId) : Control → Control → Prop
  | same (c : Control) : Alike x c c
  | sink (s t : Sink) : Alike x (.register x s) (.register x t)

/-- Two moves that differ at most in the sink registered for one id. -/
inductive Move.Alike (x : SubscriberId) : Move → Move → Prop
  | same (m : Move) : Alike x m m
  | sink (s t : Sink) :
      Alike x (.offer (.control (.register x s))) (.offer (.control (.register x t)))

/-- Two hubs that differ at most in what concerns one id. -/
structure Alike (x : SubscriberId) (h g : Hub) : Prop where
  frame_eq : h.frame = g.frame
  control : List.Forall₂ (Control.Alike x) h.control g.control
  others_eq : h.others x = g.others x
  names_eq : names h.history = names g.history
  handed : ∀ n, (n, x) ∉ names h.history → handedTo n h.history = handedTo n g.history

/-- Two hubs whose loops go on and that are alike, or whose loops are over, the others having been
handed the same. -/
inductive Near (x : SubscriberId) (h g : Hub) : Prop
  | live : h.loopOver = false → Alike x h g → Near x h g
  | past : h.loopOver = true → g.loopOver = true → names h.history = names g.history →
      (∀ n, (n, x) ∉ names h.history → handedTo n h.history = handedTo n g.history) → Near x h g

/-- Nothing was registered, handed over or taken from a queue. -/
structure Silent (h h' : Hub) : Prop where
  frame_eq : h'.frame = h.frame
  control_eq : h'.control = h.control
  names_eq : names h'.history = names h.history
  handed_eq : ∀ n, handedTo n h'.history = handedTo n h.history

/-- Every subscriber stands in the history under its number and its id. -/
def Named (h : Hub) : Prop := ∀ s ∈ h.subscribers, (s.serial, s.id) ∈ names h.history

end Defs

section Silence

theorem Silent.refl (h : Hub) : h.Silent h := ⟨rfl, rfl, rfl, fun _ => rfl⟩

theorem Silent.trans {h₁ h₂ h₃ : Hub} (h : h₁.Silent h₂) (h' : h₂.Silent h₃) : h₁.Silent h₃ :=
  ⟨h'.frame_eq.trans h.frame_eq, h'.control_eq.trans h.control_eq, h'.names_eq.trans h.names_eq,
    fun n => (h'.handed_eq n).trans (h.handed_eq n)⟩

variable (h : Hub)

theorem remove_silent (id : SubscriberId) : h.Silent (h.remove id) := by
  unfold remove
  split
  · exact .refl h
  · simp only
    split
    all_goals exact ⟨rfl, rfl, rfl, fun _ => rfl⟩

theorem removeAll_silent (ids : List SubscriberId) : h.Silent (h.removeAll ids) := by
  induction ids generalizing h with
  | nil => exact .refl h
  | cons id ids ih =>
    unfold removeAll
    split
    · exact .refl h
    · exact (remove_silent h id).trans (ih _)

theorem names_handAll (text : String) :
    names (h.handAll text).history = names h.history := by
  unfold handAll names
  rw [List.filterMap_append, List.filterMap_eq_nil_iff.2 ?_, List.nil_append]
  intro d hd
  obtain ⟨s, _, rfl⟩ := List.mem_map.1 (List.mem_reverse.1 hd)
  rfl

/-- A broadcast registers nobody and takes nothing from a queue. -/
theorem broadcast_frame (e : Envelope) : (h.broadcast e).1.frame = h.frame ∧
    (h.broadcast e).1.control = h.control ∧
      names (h.broadcast e).1.history = names h.history := by
  have hall := removeAll_silent ((h.note (.dispatched e)).handAll e.toJson)
    ((h.subscribers.filter fun s => !takes h.timeLimit s).map (·.id))
  have hnames : names ((h.note (.dispatched e)).handAll e.toJson).history = names h.history :=
    names_handAll _ _
  unfold broadcast
  simp only
  split
  all_goals exact ⟨hall.frame_eq, hall.control_eq, hall.names_eq.trans hnames⟩

theorem register_frame (id : SubscriberId) (sink : Sink) :
    (h.register id sink).frame =
        { h with serials := h.serials + 1 }.frame ∧
      (h.register id sink).control = h.control ∧
        names (h.register id sink).history = (h.serials, id) :: names h.history := by
  unfold register
  simp only
  split
  · exact ⟨rfl, rfl, rfl⟩
  · split
    all_goals exact ⟨rfl, rfl, rfl⟩

theorem loopOver_of_frame {h g : Hub} (hframe : h.frame = g.frame) : h.loopOver = g.loopOver := by
  simp only [frame, Prod.mk.injEq] at hframe
  exact hframe.2.2.2.2.2.2.2.1.1

theorem obey_loopOver (c : Control) : (h.obey c).loopOver = h.loopOver := by
  cases c with
  | register id sink =>
    have hover := loopOver_of_frame (register_frame h id sink).1
    exact hover
  | unregister id => exact loopOver_of_frame (remove_silent h id).frame_eq
  | count => rfl

variable {h} in
/-- A turn that is not one after the loop is taken while the loop goes on. -/
theorem live_of_ready {b : Branch} (hb : b ≠ .farewell) (hready : h.ready b = true) :
    h.loopOver = false := by
  unfold ready at hready
  rw [if_neg hb] at hready
  simp only [Bool.and_eq_true, Bool.not_eq_true'] at hready
  exact hready.2.1

variable {h} in
/-- After the loop nothing is handed over any more, and nobody registers. -/
theorem step_of_loopOver (hover : h.loopOver = true) (b : Branch) :
    (h.step b).loopOver = true ∧ names (h.step b).history = names h.history ∧
      ∀ n, handedTo n (h.step b).history = handedTo n h.history := by
  have hlive : b ≠ .farewell → h.ready b ≠ true := by
    intro hb hready
    rw [live_of_ready hb hready] at hover
    cases hover
  have hturn := h.step_turns b
  generalize h.step b = h' at *
  cases hturn with
  | idle _ | last _ _ => exact ⟨hover, rfl, fun _ => rfl⟩
  | @goodbye s rest _ _ => exact ⟨hover, rfl, fun _ => rfl⟩
  | signal hready | control hready _ => exact absurd hready (hlive (by decide))
  | value hready hp => exact absurd hready (hlive (of_mem_queues hp.mem_queues).2)
  | empty hb hready _ => exact absurd hready (hlive (of_mem_queues hb).2)

end Silence

section Naming

variable {h : Hub}

/-- Whoever was in the set under a number and an id before is still known by them. -/
theorem Named.of_subset (hn : h.Named) {h' : Hub}
    (hsubs : ∀ t ∈ h'.subscribers, ∃ s ∈ h.subscribers, s.serial = t.serial ∧ s.id = t.id)
    (hnames : names h'.history = names h.history) : h'.Named := by
  intro t ht
  obtain ⟨s, hs, hserial, hid⟩ := hsubs t ht
  rw [hnames, ← hserial, ← hid]
  exact hn s hs

theorem obey_named (hn : h.Named) (c : Control) : (h.obey c).Named := by
  cases c with
  | register id sink =>
    intro t ht
    rw [obey, (register_frame h id sink).2.2]
    rw [obey, register_subscribers, List.mem_append, List.mem_singleton] at ht
    rcases ht with ht | rfl
    · exact List.mem_cons_of_mem _ (hn t (List.mem_of_mem_filter ht))
    · exact List.mem_cons_self
  | unregister id =>
    refine hn.of_subset (fun t ht => ?_) (remove_silent h id).names_eq
    rw [obey, remove_subscribers] at ht
    exact ⟨t, List.mem_of_mem_filter ht, rfl, rfl⟩
  | count => exact hn.of_subset (fun t ht => ⟨t, ht, rfl, rfl⟩) rfl

theorem broadcast_named (hk : h.Kept Nobody) (hn : h.Named) (e : Envelope) :
    (h.broadcast e).1.Named := by
  refine hn.of_subset (fun t ht => ?_) (broadcast_frame h e).2.2
  rw [broadcast_subscribers hk.ids (broadcast_kept hk e).free] at ht
  obtain ⟨s, hs, rfl⟩ := List.mem_map.1 ht
  exact ⟨s, List.mem_of_mem_filter hs, rfl, rfl⟩

theorem step_named (hk : h.Kept Nobody) (hn : h.Named) (b : Branch) : (h.step b).Named := by
  have hturn := h.step_turns b
  generalize h.step b = h' at *
  cases hturn with
  | idle _ | signal _ | last _ _ => exact hn
  | goodbye _ hs =>
    refine hn.of_subset (fun t ht => ⟨t, ?_, rfl, rfl⟩) rfl
    rw [hs]
    exact List.mem_cons_of_mem _ ht
  | @control c rest _ _ => exact obey_named (h := { h with control := rest }) hn c
  | value _ hp =>
    obtain ⟨hsubs, hhistory, -⟩ := hp.same
    refine broadcast_named (hp.kept hk) (hn.of_subset (fun t ht => ⟨t, ?_, rfl, rfl⟩) ?_) _
    · rw [← hsubs]
      exact ht
    · rw [hhistory]
  | empty _ _ _ =>
    obtain ⟨loopOver, heq⟩ := shut_same h b
    rw [heq]
    exact hn

theorem move_named (hk : h.Kept Nobody) (hn : h.Named) (m : Move) : (h.move m).Named := by
  rcases h.move_cases m with ⟨b, rfl⟩ | ⟨-, _, _, _, _, _, _, _, heq⟩
  · exact step_named hk hn b
  · rw [heq]
    exact hn

end Naming

section Relating

variable {x : SubscriberId} {h g : Hub}

/-- A change of queues and signals alone. -/
theorem Alike.same (ha : Alike x h g) {h' g' : Hub} (hframe : h'.frame = g'.frame)
    (hcontrol : List.Forall₂ (Control.Alike x) h'.control g'.control)
    (hsubs : h'.subscribers = h.subscribers ∧ g'.subscribers = g.subscribers)
    (hhistory : h'.history = h.history ∧ g'.history = g.history) : Alike x h' g' where
  frame_eq := hframe
  control := hcontrol
  others_eq := by
    unfold others
    rw [hsubs.1, hsubs.2]
    exact ha.others_eq
  names_eq := by rw [hhistory.1, hhistory.2, ha.names_eq]
  handed n hn := by
    rw [hhistory.1, hhistory.2]
    exact ha.handed n (hhistory.1 ▸ hn)

theorem Alike.fields (ha : Alike x h g) : h.timeLimit = g.timeLimit ∧ h.chats = g.chats ∧
    h.rosters = g.rosters ∧ h.lines = g.lines ∧
      (h.sendersGone = g.sendersGone ∧ h.loose = g.loose) ∧ h.openBranches = g.openBranches ∧
        h.signalled = g.signalled ∧ (h.loopOver = g.loopOver ∧ h.ended = g.ended) ∧
          h.serials = g.serials := by
  have hframe := ha.frame_eq
  simpa only [frame, Prod.mk.injEq] using hframe

theorem others_filter (p : Subscriber → Bool) (subs : List Subscriber) :
    (subs.filter p).filter (fun s => !(s.id == x)) =
      (subs.filter fun s => !(s.id == x)).filter p := by
  rw [List.filter_filter, List.filter_filter]
  exact List.filter_congr fun s _ => Bool.and_comm ..

/-- A silent change on both sides that leaves the same of the others. -/
theorem Alike.silent (ha : Alike x h g) {h' g' : Hub} (hh : h.Silent h') (hg : g.Silent g')
    (hothers : h'.others x = g'.others x) : Alike x h' g' where
  frame_eq := by rw [hh.frame_eq, hg.frame_eq, ha.frame_eq]
  control := by rw [hh.control_eq, hg.control_eq]; exact ha.control
  others_eq := hothers
  names_eq := by rw [hh.names_eq, hg.names_eq, ha.names_eq]
  handed n hn := by
    rw [hh.handed_eq, hg.handed_eq]
    exact ha.handed n (hh.names_eq ▸ hn)

theorem Alike.remove (ha : Alike x h g) (id : SubscriberId) :
    Alike x (h.remove id) (g.remove id) := by
  refine ha.silent (remove_silent h id) (remove_silent g id) ?_
  have hothers := ha.others_eq
  unfold others at hothers ⊢
  rw [remove_subscribers, remove_subscribers, others_filter _ h.subscribers,
    others_filter _ g.subscribers, hothers]

/-- A registration of the same id, with the same sink unless it is the id in question. -/
theorem Alike.register (ha : Alike x h g) {id : SubscriberId} {s t : Sink}
    (hsink : id = x ∨ s = t) : Alike x (h.register id s) (g.register id t) := by
  obtain ⟨hframe, hcontrol, hnames⟩ := register_frame h id s
  obtain ⟨gframe, gcontrol, gnames⟩ := register_frame g id t
  obtain ⟨htime, hchats, hrosters, hlines, hgone, hopen, hsignal, hended, hserials⟩ := ha.fields
  refine ⟨?_, ?_, ?_, ?_, fun n hn => ?_⟩
  · rw [hframe, gframe]
    simp [frame, htime, hchats, hrosters, hlines, hgone, hopen, hsignal, hended, hserials]
  · rw [hcontrol, gcontrol]
    exact ha.control
  · -- The new registration has the same number on both sides.
    have hothers := ha.others_eq
    unfold others at hothers ⊢
    rw [register_subscribers, register_subscribers, List.filter_append, List.filter_append,
      others_filter _ h.subscribers, others_filter _ g.subscribers, hothers, hserials]
    rcases hsink with rfl | rfl
    · simp
    · rfl
  · rw [hnames, gnames, hserials, ha.names_eq]
  · rw [handedTo_register, handedTo_register]
    rw [hnames] at hn
    exact ha.handed n fun hmem => hn (List.mem_cons_of_mem _ hmem)

theorem Alike.obey (ha : Alike x h g) {c d : Control} (hc : Control.Alike x c d) :
    Alike x (h.obey c) (g.obey d) := by
  cases hc with
  | same c =>
    cases c with
    | register id sink => exact ha.register (Or.inr rfl)
    | unregister id => exact ha.remove id
    | count => exact ha.silent ⟨rfl, rfl, rfl, fun _ => rfl⟩ ⟨rfl, rfl, rfl, fun _ => rfl⟩ ha.others_eq
  | sink s t => exact ha.register (Or.inl rfl)

/-- Registrations of other ids are found among the others. -/
theorem Named.filter_others (hn : h.Named) {n : Nat} (hx : (n, x) ∉ names h.history) :
    h.subscribers.filter (·.serial = n) = (h.others x).filter (·.serial = n) := by
  unfold others
  rw [List.filter_filter]
  apply List.filter_congr
  intro s hs
  by_cases hserial : s.serial = n
  · have hid : s.id ≠ x := by
      rintro rfl
      exact hx (hserial ▸ hn s hs)
    simp [hserial, hid]
  · simp [hserial]

/-- **A broadcast** hands the same to the others and keeps the same of them. -/
theorem Alike.broadcast (ha : Alike x h g) (hk : h.Kept Nobody) (gk : g.Kept Nobody)
    (hn : h.Named) (gn : g.Named) (e : Envelope) :
    Alike x (h.broadcast e).1 (g.broadcast e).1 := by
  obtain ⟨hframe, hcontrol, hnames⟩ := broadcast_frame h e
  obtain ⟨gframe, gcontrol, gnames⟩ := broadcast_frame g e
  have htime : h.timeLimit = g.timeLimit := ha.fields.1
  refine ⟨by rw [hframe, gframe, ha.frame_eq], ?_, ?_, by rw [hnames, gnames, ha.names_eq],
    fun n hx => ?_⟩
  · rw [hcontrol, gcontrol]
    exact ha.control
  · -- What a broadcast leaves of the others is a function of the others and the time limit.
    have hafter : ∀ {h : Hub}, h.Kept Nobody → (h.broadcast e).1.others x =
        ((h.others x).filter (takes h.timeLimit)).map fun s =>
          { s with attempts := s.attempts + 1 } := by
      intro h hk
      unfold others
      rw [broadcast_subscribers hk.ids (broadcast_kept hk e).free, List.filter_map, ← others_filter]
      rfl
    rw [hafter hk, hafter gk, ha.others_eq, htime]
  · rw [hnames] at hx
    have hx' : (n, x) ∉ names g.history := ha.names_eq ▸ hx
    rw [handedTo_broadcast, handedTo_broadcast, ha.handed n hx, hn.filter_others hx,
      gn.filter_others hx', ha.others_eq, htime]

/-- The loops are over on both sides. -/
theorem Alike.quit (ha : Alike x h g) : Near x h.quit g.quit :=
  .past rfl rfl ha.names_eq ha.handed

theorem Alike.shut (ha : Alike x h g) (hlive : h.loopOver = false) (b : Branch) :
    Near x (h.shut b) (g.shut b) := by
  obtain ⟨htime, hchats, hrosters, hlines, hgone, hopen, hsignal, hended, hserials⟩ := ha.fields
  have hshut : Alike x { h with openBranches := h.openBranches.filter (fun c => c != b) }
      { g with openBranches := g.openBranches.filter (fun c => c != b) } :=
    ha.same (by
      simp [frame, htime, hchats, hrosters, hlines, hgone, hopen, hsignal, hended, hserials])
      ha.control ⟨rfl, rfl⟩ ⟨rfl, rfl⟩
  unfold Hub.shut
  simp only [hopen]
  simp only [hopen] at hshut
  split
  · exact hshut.quit
  · exact .live hlive hshut

theorem Alike.queued (ha : Alike x h g) (b : Branch) : h.queued b = g.queued b := by
  obtain ⟨-, hchats, hrosters, hlines, -⟩ := ha.fields
  cases b with
  | control => exact ha.control.length_eq
  | chat | roster | server | signal | farewell => simp [Hub.queued, hchats, hrosters, hlines]

theorem Alike.isEmpty (ha : Alike x h g) (b : Branch) : h.isEmpty b = g.isEmpty b := by
  obtain ⟨-, hchats, hrosters, hlines, -⟩ := ha.fields
  cases b with
  | control =>
    unfold Hub.isEmpty
    rw [Bool.eq_iff_iff, List.isEmpty_iff_length_eq_zero, List.isEmpty_iff_length_eq_zero,
      ha.control.length_eq]
  | chat | roster | server | signal | farewell => simp [Hub.isEmpty, hchats, hrosters, hlines]

theorem Alike.deserted (ha : Alike x h g) (b : Branch) : h.deserted b = g.deserted b := by
  obtain ⟨-, -, -, -, hgone, -⟩ := ha.fields
  unfold Hub.deserted
  rw [hgone.1, hgone.2]

theorem Alike.ready (ha : Alike x h g) (hk : h.Kept Nobody) (gk : g.Kept Nobody) (b : Branch) :
    h.ready b = g.ready b := by
  obtain ⟨-, -, -, -, -, hopen, hsignal, ⟨hover, hended⟩, -⟩ := ha.fields
  unfold Hub.ready
  rw [ha.isEmpty b, ha.deserted b, hover, hended, hk.free, gk.free, hsignal, hopen]

/-- The same value stands at the head of a queue. -/
theorem Alike.pops (ha : Alike x h g) {b : Branch} {e : Envelope} {h' : Hub} (hp : h.Pops b e h') :
    ∃ g', g.Pops b e g' ∧ Alike x h' g' := by
  obtain ⟨htime, hchats, hrosters, hlines, hgone, hopen, hsignal, hended, hserials⟩ := ha.fields
  cases hp with
  | chat hq =>
    refine ⟨_, .chat (hchats.symm.trans hq), ha.same ?_ ha.control ⟨rfl, rfl⟩ ⟨rfl, rfl⟩⟩
    simp [frame, htime, hrosters, hlines, hgone, hopen, hsignal, hended, hserials]
  | roster hq =>
    refine ⟨_, .roster (hrosters.symm.trans hq), ha.same ?_ ha.control ⟨rfl, rfl⟩ ⟨rfl, rfl⟩⟩
    simp [frame, htime, hchats, hlines, hgone, hopen, hsignal, hended, hserials]
  | server hq =>
    refine ⟨_, .server (hlines.symm.trans hq), ha.same ?_ ha.control ⟨rfl, rfl⟩ ⟨rfl, rfl⟩⟩
    simp [frame, htime, hchats, hrosters, hgone, hopen, hsignal, hended, hserials]

end Relating

section Running

variable {x : SubscriberId} {h g : Hub}

theorem Pops.named {h' : Hub} {b : Branch} {e : Envelope} (hp : h.Pops b e h') (hn : h.Named) :
    h'.Named := by
  obtain ⟨hsubs, hhistory, -⟩ := hp.same
  exact hn.of_subset (fun t ht => ⟨t, hsubs ▸ ht, rfl, rfl⟩) (congrArg names hhistory)

theorem control_near (ha : Alike x h g) (hlive : h.loopOver = false) (hk : h.Kept Nobody)
    (gk : g.Kept Nobody) (hready : h.ready .control = true) :
    Near x (h.step .control) (g.step .control) := by
  have hready' : g.ready .control = true := ha.ready hk gk .control ▸ hready
  have hcontrol := ha.control
  cases hq : h.control with
  | nil =>
    have hempty : h.isEmpty .control = true := by simp [isEmpty, hq]
    rw [step_empty (by decide) hready hempty,
      step_empty (by decide) hready' (ha.isEmpty _ ▸ hempty)]
    exact ha.shut hlive .control
  | cons c rest =>
    rw [hq] at hcontrol
    cases hq' : g.control with
    | nil =>
      rw [hq'] at hcontrol
      cases hcontrol
    | cons d rest' =>
      rw [hq'] at hcontrol
      obtain ⟨hc, hrest⟩ := List.forall₂_cons.1 hcontrol
      have hpopped : Alike x { h with control := rest } { g with control := rest' } :=
        ha.same ha.frame_eq hrest ⟨rfl, rfl⟩ ⟨rfl, rfl⟩
      have hstep : h.step .control = { h with control := rest }.obey c := by
        simp [step, hready, hq]
      have gstep : g.step .control = { g with control := rest' }.obey d := by
        simp [step, hready', hq']
      rw [hstep, gstep]
      exact .live ((obey_loopOver _ c).trans hlive) (hpopped.obey hc)

/-- A queue that is not empty holds a value, or it is that of the commands. -/
theorem exists_pops {b : Branch} (hb : b ≠ .control) (hq : h.isEmpty b = false) :
    ∃ e h', h.Pops b e h' := by
  cases b with
  | control => exact absurd rfl hb
  | signal | farewell => cases hq
  | chat =>
    cases hc : h.chats with
    | nil => simp [isEmpty, hc] at hq
    | cons m rest => exact ⟨_, _, .chat hc⟩
  | roster =>
    cases hr : h.rosters with
    | nil => simp [isEmpty, hr] at hq
    | cons r rest => exact ⟨_, _, .roster hr⟩
  | server =>
    cases hl : h.lines with
    | nil => simp [isEmpty, hl] at hq
    | cons t rest => exact ⟨_, _, .server hl⟩

/-- A turn on a queue of values. -/
theorem value_near (ha : Alike x h g) (hlive : h.loopOver = false) (hk : h.Kept Nobody)
    (gk : g.Kept Nobody) (hn : h.Named) (gn : g.Named) {b : Branch} (hb : b ∈ queues)
    (hne : b ≠ .control) (hready : h.ready b = true) : Near x (h.step b) (g.step b) := by
  have hready' : g.ready b = true := ha.ready hk gk b ▸ hready
  by_cases hempty : h.isEmpty b = true
  · rw [step_empty hb hready hempty, step_empty hb hready' (ha.isEmpty b ▸ hempty)]
    exact ha.shut hlive b
  · obtain ⟨e, h', hp⟩ := exists_pops hne (by simpa using hempty)
    obtain ⟨g', gp, ha'⟩ := ha.pops hp
    rw [hp.step hready, gp.step hready']
    refine .live ?_ (ha'.broadcast (hp.kept hk) (gp.kept gk) (hp.named hn) (gp.named gn) e)
    rw [loopOver_of_frame (broadcast_frame h' e).1]
    cases hp <;> exact hlive

/-- **A turn keeps the relation.** -/
theorem step_near (hnear : Near x h g) (hk : h.Kept Nobody) (gk : g.Kept Nobody) (hn : h.Named)
    (gn : g.Named) (b : Branch) : Near x (h.step b) (g.step b) := by
  cases hnear with
  | past hover gover hnames hhanded =>
    obtain ⟨hover', hnames', hhanded'⟩ := step_of_loopOver hover b
    obtain ⟨gover', gnames', ghanded'⟩ := step_of_loopOver gover b
    refine .past hover' gover' (by rw [hnames', gnames', hnames]) fun n hx => ?_
    rw [hhanded', ghanded']
    exact hhanded n (hnames' ▸ hx)
  | live hlive ha =>
    by_cases hready : h.ready b = true
    · cases b with
      | farewell =>
        rw [loopOver_of_farewell hready] at hlive
        cases hlive
      | signal =>
        have hready' : g.ready .signal = true := ha.ready hk gk .signal ▸ hready
        have hstep : h.step .signal = h.quit := by simp [step, hready]
        have gstep : g.step .signal = g.quit := by simp [step, hready']
        rw [hstep, gstep]
        exact ha.quit
      | control => exact control_near ha hlive hk gk hready
      | chat | roster | server =>
        exact value_near ha hlive hk gk hn gn (by decide) (by decide) hready
    · have hready' : ¬ g.ready b = true := ha.ready hk gk b ▸ hready
      have hstep : h.step b = h := by simp [step, hready]
      have gstep : g.step b = g := by simp [step, hready']
      rw [hstep, gstep]
      exact .live hlive ha

/-- Two items of the same queue are taken or refused alike. -/
theorem Alike.offer (ha : Alike x h g) {i j : Item} (hb : i.branch = j.branch)
    (hpush : Alike x (h.push i) (g.push j)) : Alike x (h.offer i).2 (g.offer j).2 := by
  have hended : h.ended = g.ended := ha.fields.2.2.2.2.2.2.2.1.2
  have hfull : h.isFull i = g.isFull j := by
    unfold isFull
    rw [hb, ha.queued]
  unfold Hub.offer
  rw [hended, hfull]
  split
  · exact ha
  · split
    · exact ha
    · exact hpush

theorem offer_control_alike (ha : Alike x h g) {c d : Control} (hc : Control.Alike x c d) :
    Alike x (h.offer (.control c)).2 (g.offer (.control d)).2 :=
  ha.offer rfl (ha.same ha.frame_eq (List.rel_append ha.control (.cons hc .nil)) ⟨rfl, rfl⟩
    ⟨rfl, rfl⟩)

theorem offer_alike (ha : Alike x h g) (item : Item) :
    Alike x (h.offer item).2 (g.offer item).2 := by
  obtain ⟨htime, hchats, hrosters, hlines, hgone, hopen, hsignal, hended, hserials⟩ := ha.fields
  cases item with
  | control c => exact offer_control_alike ha (.same c)
  | chat m | roster r | server t =>
    refine ha.offer rfl (ha.same ?_ ha.control ⟨rfl, rfl⟩ ⟨rfl, rfl⟩)
    simp [push, frame, htime, hchats, hrosters, hlines, hgone, hopen, hsignal, hended, hserials]

/-- Items of one queue are offered alike if they are taken alike. -/
theorem Alike.move_offer (ha : Alike x h g) {i j : Item} (hb : i.branch = j.branch)
    (hoffer : Alike x (h.offer i).2 (g.offer j).2) :
    Alike x (h.move (.offer i)) (g.move (.offer j)) := by
  have hd : h.deserted i.branch = g.deserted j.branch := by rw [hb, ha.deserted]
  simp only [move]
  by_cases hg : g.deserted j.branch = true
  · rw [if_pos (hd.trans hg), if_pos hg]
    exact ha
  · rw [if_neg (hd ▸ hg), if_neg hg]
    exact hoffer

/-- What is no turn leaves two loops alike that go on. -/
theorem Alike.move (ha : Alike x h g) {m m' : Move} (hm : Move.Alike x m m')
    (hturn : ∀ b, m ≠ .turn b) : Alike x (h.move m) (g.move m') := by
  obtain ⟨htime, hchats, hrosters, hlines, hgone, hopen, hsignal, hended, hserials⟩ := ha.fields
  cases hm with
  | sink s t => exact ha.move_offer rfl (offer_control_alike ha (.sink s t))
  | same m =>
    cases m with
    | offer item => exact ha.move_offer rfl (offer_alike ha item)
    | turn b => exact absurd rfl (hturn b)
    | signal =>
      refine ha.same ?_ ha.control ⟨rfl, rfl⟩ ⟨rfl, rfl⟩
      simp [Hub.move, frame, htime, hchats, hrosters, hlines, hgone, hopen, hended, hserials]
    | hangUp =>
      refine ha.same ?_ ha.control ⟨rfl, rfl⟩ ⟨rfl, rfl⟩
      simp [Hub.move, frame, htime, hchats, hrosters, hlines, hgone, hopen, hsignal, hended, hserials]
    | lend b =>
      simp only [Hub.move, lend, ha.deserted]
      split
      · exact ha
      · refine ha.same ?_ ha.control ⟨rfl, rfl⟩ ⟨rfl, rfl⟩
        simp [frame, htime, hchats, hrosters, hlines, hgone, hopen, hsignal, hended, hserials]
    | release b =>
      refine ha.same ?_ ha.control ⟨rfl, rfl⟩ ⟨rfl, rfl⟩
      simp [Hub.move, release, frame, htime, hchats, hrosters, hlines, hgone, hopen, hsignal, hended,
        hserials]

theorem move_near (hnear : Near x h g) (hk : h.Kept Nobody) (gk : g.Kept Nobody) (hn : h.Named)
    (gn : g.Named) {m m' : Move} (hm : Move.Alike x m m') : Near x (h.move m) (g.move m') := by
  by_cases hturn : ∃ b, m = .turn b
  · obtain ⟨b, rfl⟩ := hturn
    cases hm
    exact step_near hnear hk gk hn gn b
  · have hno : ∀ b, m ≠ .turn b := fun b heq => hturn ⟨b, heq⟩
    have hno' : ∀ b, m' ≠ .turn b := by
      cases hm with
      | same => exact hno
      | sink s t => exact fun b heq => by cases heq
    obtain ⟨_, _, _, _, _, _, _, heq⟩ := (h.move_cases m).resolve_left hturn |>.2
    obtain ⟨_, _, _, _, _, _, _, geq⟩ :=
      (g.move_cases m').resolve_left (fun ⟨b, heq⟩ => hno' b heq) |>.2
    cases hnear with
    | live hlive ha => exact .live (by rw [heq]; exact hlive) (ha.move hm hno)
    | past hover gover hnames hhanded =>
      rw [heq, geq]
      exact .past hover gover hnames hhanded

/-- **Runs keep the relation.** -/
theorem moves_near (hnear : Near x h g) (hk : h.Kept Nobody) (gk : g.Kept Nobody) (hn : h.Named)
    (gn : g.Named) {ms ms' : List Move} (hms : List.Forall₂ (Move.Alike x) ms ms')
    (hob : Obliging ms) (gob : Obliging ms') : Near x (h.moves ms) (g.moves ms') := by
  induction hms generalizing h g with
  | nil => exact hnear
  | @cons m m' ms ms' hm _ ih =>
    have hfirst : ∀ id sink, m = .offer (.control (.register id sink)) → sink.closes = true :=
      fun id sink heq => hob id sink (heq ▸ List.mem_cons_self)
    have gfirst : ∀ id sink, m' = .offer (.control (.register id sink)) → sink.closes = true :=
      fun id sink heq => gob id sink (heq ▸ List.mem_cons_self)
    exact ih (move_near hnear hk gk hn gn hm) (move_kept hk hfirst) (move_kept gk gfirst)
      (move_named hk hn m) (move_named gk gn m')
      (fun id sink hmem => hob id sink (List.mem_cons_of_mem _ hmem))
      (fun id sink hmem => gob id sink (List.mem_cons_of_mem _ hmem))

/-- **One subscriber makes no difference to the others.** Of two runs that differ at most in what the
sinks of one id do with the texts handed to them, while every sink can be closed: whoever is registered
under another id is handed the same texts with the same outcome, and the loop is over in both or in
neither. While it goes on, the others stand in the set in both or in neither, and the loop can take the
same turns. -/
theorem isolation (x : SubscriberId) (timeLimit : Nat) (counting : Bool) {ms ms' : List Move}
    (hms : List.Forall₂ (Move.Alike x) ms ms') (hob : Obliging ms) (gob : Obliging ms') :
    let h := run timeLimit counting ms
    let g := run timeLimit counting ms'
    h.loopOver = g.loopOver ∧
      (∀ n, (n, x) ∉ names h.history → handedTo n h.history = handedTo n g.history) ∧
      (h.loopOver = false → h.others x = g.others x ∧ ∀ b, h.ready b = g.ready b) := by
  intro h g
  have hfresh : Near x (fresh timeLimit counting) (fresh timeLimit counting) :=
    .live rfl ⟨rfl, .nil, rfl, rfl, fun _ _ => rfl⟩
  have hnamed : (fresh timeLimit counting).Named := fun s hs => by cases hs
  have hkept := fresh_kept timeLimit counting
  have hnear : Near x h g := moves_near hfresh hkept hkept hnamed hnamed hms hob gob
  cases hnear with
  | live hlive ha =>
    refine ⟨ha.fields.2.2.2.2.2.2.2.1.1, ha.handed, fun _ => ⟨ha.others_eq, fun b => ?_⟩⟩
    exact ha.ready (run_kept timeLimit counting hob) (run_kept timeLimit counting gob) b
  | past hover gover _ hhanded =>
    refine ⟨hover.trans gover.symm, hhanded, fun hlive => ?_⟩
    rw [hover] at hlive
    cases hlive

/-- Without that a stall costs the others every later text, and the loop does not end when it is told
to: here the one subscriber is handed one text of two, since the sink of the other one stalls and never
finishes closing. -/
theorem stuck_closing :
    let steady : Sink := ⟨fun _ => .accepts 0, true⟩
    let ms (sink : Sink) : List Move :=
      [.offer (.control (.register ⟨1⟩ steady)), .turn .control,
        .offer (.control (.register ⟨2⟩ sink)), .turn .control, .offer (.server "a"),
        .turn .server, .offer (.server "b"), .turn .server, .signal, .turn .signal]
    let h := run 5 false (ms ⟨fun _ => .stalls, false⟩)
    let g := run 5 false (ms ⟨fun _ => .accepts 0, false⟩)
    (handedTo 0 h.history).length = 1 ∧ (handedTo 0 g.history).length = 2 ∧
      h.stuck = true ∧ h.ended = false := by
  decide +kernel

end Running

end Hub

end VoiceRelay
