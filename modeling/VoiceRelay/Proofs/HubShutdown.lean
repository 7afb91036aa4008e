import VoiceRelay.Proofs.SinkLifecycle

/-!
# Who is closed when the hub is shut down

A registration is accepted as soon as it stands in the control queue. When the hub takes the signal to
stop it closes everybody in its set, one after the other, and while it does so its queues still accept
what is put into them; what stands in them at the end is lost. So a sink whose registration was accepted
is closed if the loop has taken this registration from the queue, and is never closed otherwise. Only a
loop that ends by itself, when all queues are deserted, has emptied them before.

**Design.** Registrations get their numbers in the order in which they are taken, and control commands
are taken in the order in which they were accepted. So the `n`-th accepted registration has the number
`n` once it is taken (`Enrolled`), and until then there is no such number in the history. `backlog` counts
what is still to be done; every turn makes it smaller.

**Results.**

- `moves_enrolled`: the registrations in the history are those that were taken, in this order.
- `closings_nth`: how often the sink of the n-th accepted registration was closed at the end.
- `step_backlog`, `rest_moves`, `rest_idle`: taking turns until none is left is a run, and a finished one.
- `closed_unless_queued`: who is closed when the signal is taken, and who is not.
- `all_closed_without_signal`: without the signal everybody is closed.
-/

namespace VoiceRelay

namespace Hub

section Defs

/-- The ids that some items register, in this order. -/
def registrations (items : List Item) : List SubscriberId :=
  items.filterMap fun
    | .control (.register id _) => some id
    | _ => none

/-- The registrations in the history are those that were taken from the queue, numbered in this order. -/
structure Enrolled (h : Hub) (outs : List Item) : Prop where
  names_eq : (names h.history).reverse = (registrations outs).zipIdx.map Prod.swap
  serials_eq : h.serials = (registrations outs).length

end Defs

section Enrolling

variable {h h' : Hub} {outs : List Item}

theorem registrations_append (items more : List Item) :
    registrations (items ++ more) = registrations items ++ registrations more :=
  List.filterMap_append

/-- What registers nobody keeps the enrolment. -/
theorem Enrolled.congr (he : h.Enrolled outs) (items : List Item)
    (hnames : names h'.history = names h.history) (hserials : h'.serials = h.serials)
    (hitems : registrations items = []) : h'.Enrolled (outs ++ items) where
  names_eq := by rw [hnames, he.names_eq, registrations_append, hitems, List.append_nil]
  serials_eq := by rw [hserials, he.serials_eq, registrations_append, hitems, List.append_nil]

theorem serials_of_frame {g : Hub} (hframe : h'.frame = g.frame) : h'.serials = g.serials := by
  simp only [frame, Prod.mk.injEq] at hframe
  exact hframe.2.2.2.2.2.2.2.2

/-- The next registration gets the next number. -/
theorem Enrolled.register (he : h.Enrolled outs) (id : SubscriberId) (sink : Sink) :
    (h.register id sink).Enrolled (outs ++ [.control (.register id sink)]) := by
  obtain ⟨hframe, -, hnames⟩ := register_frame h id sink
  have hitem : registrations [.control (.register id sink)] = [id] := rfl
  constructor
  · rw [hnames, List.reverse_cons, he.names_eq, he.serials_eq, registrations_append, hitem,
      List.zipIdx_append, List.map_append]
    simp
  · rw [serials_of_frame hframe, registrations_append, hitem, List.length_append, ← he.serials_eq]
    rfl

theorem serve_enrolled (he : h.Enrolled outs) (i : Item) : (h.serve i).Enrolled (outs ++ [i]) := by
  cases i with
  | control c =>
    cases c with
    | register id sink => exact he.register id sink
    | unregister id =>
      have hsilent := remove_silent h id
      exact he.congr _ hsilent.names_eq (serials_of_frame hsilent.frame_eq) rfl
    | count => exact he.congr _ rfl rfl rfl
  | chat m | roster r | server t =>
    obtain ⟨hframe, -, hnames⟩ := broadcast_frame h _
    exact he.congr _ hnames (serials_of_frame hframe) rfl

/-- **Every turn keeps the enrolment.** -/
theorem step_enrolled (he : h.Enrolled outs) (b : Branch) :
    (h.step b).Enrolled (outs ++ h.taken (.turn b)) := by
  have hturn := h.step_dispatches b
  generalize h.taken (.turn b) = items at *
  generalize h.step b = h' at *
  cases hturn with
  | idle _ | signal _ | goodbye _ _ | last _ _ => exact he.congr [] rfl rfl rfl
  | @item _ i _ _ _ =>
    obtain ⟨control, chats, rosters, lines, heq⟩ := behead_same h b
    have hbehead : (h.behead b).Enrolled outs := by
      rw [heq]
      exact ⟨he.names_eq, he.serials_eq⟩
    exact serve_enrolled hbehead i
  | empty _ _ _ =>
    obtain ⟨loopOver, heq⟩ := shut_same h b
    rw [heq]
    exact he.congr [] rfl rfl rfl

theorem move_enrolled (he : h.Enrolled outs) (m : Move) :
    (h.move m).Enrolled (outs ++ h.taken m) := by
  rcases h.move_cases m with ⟨b, rfl⟩ | ⟨hm, _, _, _, _, _, _, _, heq⟩
  · exact step_enrolled he b
  · rw [heq, taken_of_ne_turn h hm]
    exact he.congr [] rfl rfl rfl

/-- **Runs keep the enrolment.** -/
theorem moves_enrolled (he : h.Enrolled outs) (ms : List Move) :
    (h.moves ms).Enrolled (outs ++ h.takenIn ms) := by
  induction ms generalizing h outs with
  | nil => simpa [moves, takenIn] using he
  | cons m ms ih =>
    rw [takenIn, ← List.append_assoc]
    exact ih (move_enrolled he m)

theorem run_enrolled (timeLimit : Nat) (counting : Bool) (ms : List Move) :
    (run timeLimit counting ms).Enrolled ((fresh timeLimit counting).takenIn ms) := by
  have hfresh : (fresh timeLimit counting).Enrolled [] := ⟨rfl, rfl⟩
  exact moves_enrolled hfresh ms

theorem mem_names {n : Nat} {id : SubscriberId} {past : List Deed} :
    (n, id) ∈ names past ↔ Deed.registered n id ∈ past := by
  unfold names
  rw [List.mem_filterMap]
  constructor
  · rintro ⟨d, hd, heq⟩
    cases d with
    | registered m id' =>
      cases heq
      exact hd
    | handed m text ok | closed m | dispatched e | counted size => cases heq
  · exact fun hmem => ⟨_, hmem, rfl⟩

/-- The number `n` is in the history once more than `n` registrations were taken. -/
theorem Enrolled.registered_iff (he : h.Enrolled outs) {n : Nat} {id : SubscriberId} :
    Deed.registered n id ∈ h.history ↔ (registrations outs)[n]? = some id := by
  rw [← mem_names, ← List.mem_reverse, he.names_eq, List.mem_map]
  constructor
  · rintro ⟨⟨id', m⟩, hmem, heq⟩
    cases heq
    exact List.mem_zipIdx_iff_getElem?.1 hmem
  · exact fun hget => ⟨(id, n), List.mem_zipIdx_iff_getElem?.2 hget, rfl⟩

end Enrolling

section Ending

variable {h : Hub} {ins outs : List Item}

/-- **How often the sink of the n-th accepted registration was closed** when the loop has ended: once if
the registration was taken from the queue, and never otherwise. -/
theorem closings_nth (hc : h.Chronicled) (he : h.Enrolled outs) (hended : h.ended = true) (n : Nat) :
    closings n h.history = if n < (registrations outs).length then 1 else 0 := by
  split
  · next hn =>
    have hmem := he.registered_iff.2 (List.getElem?_eq_getElem hn)
    refine (closings_eq hc.kept hc.annals hmem).2 ?_
    rintro ⟨s, hs, -⟩
    rw [hc.vacant hended] at hs
    cases hs
  · next hn =>
    refine (hc.annals.lawful.unregistered fun id hmem => ?_).2
    rw [he.registered_iff, List.getElem?_eq_none (Nat.le_of_not_lt hn)] at hmem
    cases hmem

/-- Whoever registers somebody stands in the control queue. -/
theorem registrations_itemsOf (items : List Item) :
    registrations (itemsOf .control items) = registrations items := by
  induction items with
  | nil => rfl
  | cons i items ih =>
    cases i with
    | control c => cases c <;> simpa [registrations, itemsOf, Item.branch] using ih
    | chat m | roster r | server t => simpa [registrations, itemsOf, Item.branch] using ih

/-- Until the loop ends, an accepted registration was taken or stands in the control queue. -/
theorem Flow.registrations_eq (hf : h.Flow ins outs) (hlive : h.ended = false ∨ h.signalled = false) :
    registrations ins = registrations outs ++ registrations (h.waiting .control) := by
  rw [← registrations_itemsOf ins, ← registrations_itemsOf outs, ← registrations_append,
    hf.whole hlive .control]

theorem takenIn_append (h : Hub) (ms more : List Move) :
    h.takenIn (ms ++ more) = h.takenIn ms ++ (h.moves ms).takenIn more := by
  induction ms generalizing h with
  | nil => rfl
  | cons m ms ih => simpa [takenIn, moves] using ih (h.move m)

theorem admittedIn_append (h : Hub) (ms more : List Move) :
    h.admittedIn (ms ++ more) = h.admittedIn ms ++ (h.moves ms).admittedIn more := by
  induction ms generalizing h with
  | nil => rfl
  | cons m ms ih => simpa [admittedIn, moves] using ih (h.move m)

/-- A loop that is over takes nothing from its queues. -/
theorem takenIn_of_loopOver (hover : h.loopOver = true) (ms : List Move) : h.takenIn ms = [] := by
  induction ms generalizing h with
  | nil => rfl
  | cons m ms ih =>
    have htaken : h.taken m = [] := by
      cases m with
      | turn b =>
        by_cases hb : b = .farewell
        · rw [hb]
          exact taken_nil h rfl
        · have hidle : h.ready b ≠ true := by
            intro hready
            rw [live_of_ready hb hready] at hover
            cases hover
          simp [taken, hidle]
      | offer i | signal | hangUp | lend b | release b => rfl
    have hnext : (h.move m).loopOver = true := loopOver_moves hover [m]
    rw [takenIn, htaken, ih hnext]
    rfl

end Ending

section Resting

variable (h : Hub)

theorem removeAll_length_le (ids : List SubscriberId) :
    (h.removeAll ids).subscribers.length ≤ h.subscribers.length := by
  induction ids generalizing h with
  | nil => exact Nat.le_refl _
  | cons id ids ih =>
    unfold removeAll
    split
    · exact Nat.le_refl _
    · refine Nat.le_trans (ih _) ?_
      rw [remove_subscribers]
      exact List.length_filter_le _ _

theorem broadcast_length_le (e : Envelope) :
    (h.broadcast e).1.subscribers.length ≤ h.subscribers.length := by
  rw [(broadcast_eq h e).1]
  refine Nat.le_trans (removeAll_length_le _ _) ?_
  simp [handAll, note]

variable {h}

/-- The backlog is that of queues, flags and the size of the set. -/
theorem backlog_le {h' g : Hub} (k : Nat) (hframe : h'.frame = g.frame)
    (hcontrol : h'.control = g.control)
    (hsubs : h'.subscribers.length ≤ g.subscribers.length + k) : h'.backlog ≤ g.backlog + k := by
  simp only [frame, Prod.mk.injEq] at hframe
  obtain ⟨-, hchats, hrosters, hlines, -, hopen, -, ⟨hover, hended⟩, -⟩ := hframe
  unfold backlog
  rw [hchats, hrosters, hlines, hopen, hover, hended, hcontrol]
  omega

theorem obey_backlog (h : Hub) (c : Control) : (h.obey c).backlog ≤ h.backlog + 1 := by
  cases c with
  | register id sink =>
    obtain ⟨hframe, hcontrol, -⟩ := register_frame h id sink
    refine backlog_le (g := { h with serials := h.serials + 1 }) 1 hframe hcontrol ?_
    have hless := List.length_filter_le (fun t => !(t.id == id)) h.subscribers
    rw [obey, register_subscribers, List.length_append, List.length_singleton]
    exact Nat.add_le_add_right hless 1
  | unregister id =>
    have hsilent := remove_silent h id
    have hless := List.length_filter_le (fun t => !(t.id == id)) h.subscribers
    refine backlog_le 1 hsilent.frame_eq hsilent.control_eq ?_
    rw [obey, remove_subscribers]
    exact Nat.le_succ_of_le hless
  | count => exact Nat.le_succ _

theorem broadcast_backlog (h : Hub) (e : Envelope) : (h.broadcast e).1.backlog ≤ h.backlog :=
  backlog_le 0 (broadcast_frame h e).1 (broadcast_frame h e).2.1 (broadcast_length_le h e)

/-- **Every turn leaves less to do.** -/
theorem step_backlog {b : Branch} (hready : h.ready b = true) : (h.step b).backlog < h.backlog := by
  have hended := ended_of_ready hready
  have hturn := h.step_turns b
  generalize h.step b = h' at *
  cases hturn with
  | idle hnot =>
    rw [hready] at hnot
    cases hnot
  | signal _ =>
    have hlive := live_of_ready (by decide) hready
    simp [backlog, quit, hlive]
  | goodbye _ hs => simp [backlog, close, note, hs]
  | last _ _ =>
    simp only [backlog, finish, count, hended, List.length_nil, Bool.not_true, Bool.not_false,
      Bool.toNat_true, Bool.toNat_false]
    omega
  | @control c rest _ hc =>
    have hle := obey_backlog { h with control := rest } c
    have hless : ({ h with control := rest } : Hub).backlog + 2 = h.backlog := by
      simp only [backlog, hc, List.length_cons]
      omega
    omega
  | @value _ e g _ hp =>
    have hle := broadcast_backlog g e
    have hless : g.backlog + 1 = h.backlog := by
      cases hp with
      | chat hq | roster hq | server hq =>
        simp only [backlog, hq, List.length_cons]
        omega
    omega
  | empty hb _ _ =>
    have hmem : b ∈ h.openBranches := by
      obtain ⟨hsignal, hfarewell⟩ := of_mem_queues hb
      unfold ready at hready
      rw [if_neg hfarewell, if_neg hsignal] at hready
      simp only [Bool.and_eq_true, List.contains_iff_mem] at hready
      exact hready.2.2.1
    have hlive := live_of_ready (of_mem_queues hb).2 hready
    have hless : (h.openBranches.filter (fun c => c != b)).length < h.openBranches.length :=
      List.length_filter_lt_length_iff_exists.2 ⟨b, hmem, by simp⟩
    obtain ⟨loopOver, heq⟩ := shut_same h b
    have hbit : (!loopOver).toNat ≤ 1 := Bool.toNat_le _
    rw [heq]
    simp only [backlog, hlive, Bool.not_false, Bool.toNat_true]
    omega

/-- **Taking turns until none is left is a run of turns.** -/
theorem rest_moves (h : Hub) : ∃ bs : List Branch, h.rest = h.moves (bs.map Move.turn) := by
  have hsettle : ∀ n (h : Hub), ∃ bs : List Branch, settle n h = h.moves (bs.map Move.turn) := by
    intro n
    induction n with
    | zero => exact fun h => ⟨[], rfl⟩
    | succ n ih =>
      intro h
      unfold settle
      split
      · exact ⟨[], rfl⟩
      · next b _ =>
        obtain ⟨bs, hbs⟩ := ih (h.step b)
        exact ⟨b :: bs, hbs⟩
  exact hsettle h.backlog h

/-- **No turn is left to take then.** -/
theorem rest_idle (h : Hub) (b : Branch) : h.rest.ready b = false := by
  have hnone : ∀ {h : Hub}, h.nextBranch = none → ∀ b, h.ready b = false := by
    intro h hnext b
    have hall := List.find?_eq_none.1 hnext b (by cases b <;> decide)
    simpa using hall
  have hsettle : ∀ n (h : Hub), h.backlog ≤ n → ∀ b, (settle n h).ready b = false := by
    intro n
    induction n with
    | zero =>
      intro h hle b
      rw [← Bool.not_eq_true]
      intro hready
      exact absurd (step_backlog hready) (by simp only [settle]; omega)
    | succ n ih =>
      intro h hle
      unfold settle
      split
      · next hnext => exact hnone hnext
      · next b hnext =>
        have hless := step_backlog (List.find?_some hnext)
        exact ih (h.step b) (by omega)
  exact hsettle h.backlog h (Nat.le_refl _) b

/-- **A hub that is told to stop ends**, if every sink can be closed. -/
theorem rest_ends (hk : h.Kept Nobody) (hstop : h.signalled = true ∨ h.loopOver = true) :
    h.rest.ended = true := by
  obtain ⟨bs, hbs⟩ := rest_moves h
  have hturns : Obliging (bs.map Move.turn) := by
    intro id sink hmem
    obtain ⟨b, -, heq⟩ := List.mem_map.1 hmem
    cases heq
  have hfree : h.rest.stuck = false := by
    rw [hbs]
    exact (moves_kept hk hturns).free
  have hquiet : Move.signal ∉ bs.map Move.turn := by simp
  have hstop' : h.rest.signalled = true ∨ h.rest.loopOver = true := by
    rw [hbs, signalled_moves h hquiet]
    exact hstop.imp_right fun hover => loopOver_moves hover _
  have hfarewell := rest_idle h .farewell
  rw [ready, if_pos rfl, hfree] at hfarewell
  have hover : h.rest.loopOver = true ∨ h.rest.ended = true := by
    rcases hstop' with hsignalled | hover
    · have hsignal := rest_idle h .signal
      rw [ready, if_neg (by decide), if_pos rfl, hfree, hsignalled] at hsignal
      simpa [or_iff_not_imp_right] using hsignal
    · exact Or.inl hover
  rcases hover with hover | hended
  · simpa [hover] using hfarewell
  · exact hended

end Resting

section Law

/-- Everybody is among the first ones if there are no others. -/
theorem all_first_iff {α : Type} (first others : List α) :
    (∀ n < (first ++ others).length, (if n < first.length then 1 else 0) = 1) ↔ others = [] := by
  constructor
  · intro hall
    by_contra hne
    have hpos := List.length_pos_iff.2 hne
    have hlt : first.length < (first ++ others).length := by
      rw [List.length_append]
      omega
    have hone := hall first.length hlt
    rw [if_neg (Nat.lt_irrefl _)] at hone
    cases hone
  · rintro rfl n hn
    rw [List.append_nil] at hn
    rw [if_pos hn]

/-- **Who is closed when the signal to stop is taken.** In every run with a turn on the signal, an
accepted registration was taken from the control queue before, or it stands there at that moment, or it is
accepted afterwards, while those in the set are closed. When the hub has ended, the sink of each
registration of the first kind was closed, and once; the others are never closed. So all accepted sinks are
closed if and only if no registration stands in the queue when the signal is taken and none is accepted
later. The hub does end. -/
theorem closed_unless_queued (timeLimit : Nat) (counting : Bool) (before after : List Move)
    (hms : Obliging (before ++ .turn .signal :: after))
    (hready : (run timeLimit counting before).ready .signal = true) :
    let start := fresh timeLimit counting
    let h := run timeLimit counting (before ++ .turn .signal :: after)
    let accepted := registrations (start.admittedIn (before ++ .turn .signal :: after))
    let taken := registrations (start.takenIn before)
    let queued := registrations ((run timeLimit counting before).waiting .control)
    let late := registrations ((run timeLimit counting before).quit.admittedIn after)
    accepted = taken ++ (queued ++ late) ∧ h.rest.ended = true ∧
      (h.ended = true →
        (∀ n < accepted.length, closings n h.history = if n < taken.length then 1 else 0) ∧
        ((∀ n < accepted.length, closings n h.history = 1) ↔ queued ++ late = [])) := by
  intro start h accepted taken queued late
  have hquit : (run timeLimit counting before).move (.turn .signal) =
      (run timeLimit counting before).quit := by simp [move, step, hready]
  have hsplit : h = (run timeLimit counting before).quit.moves after := by
    rw [← hquit]
    simp [h, run, moves]
  have hover : h.loopOver = true := by
    rw [hsplit]
    exact loopOver_moves rfl after
  have houts : start.takenIn (before ++ .turn .signal :: after) = start.takenIn before := by
    have hnone : (run timeLimit counting before).takenIn (.turn .signal :: after) = [] := by
      rw [takenIn, taken_nil _ rfl, hquit, takenIn_of_loopOver rfl]
      rfl
    rw [takenIn_append]
    exact (congrArg _ hnone).trans (List.append_nil _)
  have haccepted : accepted = taken ++ (queued ++ late) := by
    have hflow := moves_flow (fresh_flow timeLimit counting) before
    have heq := hflow.registrations_eq (Or.inl (ended_of_ready hready))
    rw [List.nil_append, List.nil_append] at heq
    have hins : start.admittedIn (before ++ .turn .signal :: after) =
        start.admittedIn before ++ (run timeLimit counting before).quit.admittedIn after := by
      rw [admittedIn_append]
      exact congrArg (fun g => start.admittedIn before ++ admittedIn g after) hquit
    calc accepted
        = registrations (start.admittedIn before) ++ late :=
          (congrArg registrations hins).trans (registrations_append _ _)
      _ = taken ++ queued ++ late := congrArg (· ++ late) heq
      _ = taken ++ (queued ++ late) := List.append_assoc _ _ _
  refine ⟨haccepted, rest_ends (run_kept timeLimit counting hms) (Or.inr hover), fun hended => ?_⟩
  have hclosings : ∀ n, closings n h.history = if n < taken.length then 1 else 0 := by
    intro n
    have he := run_enrolled timeLimit counting (before ++ .turn .signal :: after)
    have hnth := closings_nth (run_chronicled timeLimit counting hms) he hended n
    rwa [houts] at hnth
  refine ⟨fun n _ => hclosings n, ?_⟩
  simp only [hclosings, haccepted]
  exact all_first_iff taken (queued ++ late)

-- Three registrations are accepted. The second is queued when the signal is taken, the third is accepted
-- after the first sink was closed: the hub ends in order and has not touched these two.
example :
    let sink : Sink := ⟨fun _ => .accepts 0, true⟩
    let before : List Move := [.offer (.control (.register ⟨1⟩ sink)), .turn .control,
      .offer (.control (.register ⟨2⟩ sink)), .signal]
    let after : List Move := [.turn .farewell, .offer (.control (.register ⟨3⟩ sink)),
      .turn .farewell]
    let h := run 5 false (before ++ .turn .signal :: after)
    registrations ((fresh 5 false).admittedIn (before ++ .turn .signal :: after)) =
        [⟨1⟩, ⟨2⟩, ⟨3⟩] ∧
      h.ended = true ∧ h.stuck = false ∧ h.history = [.closed 0, .registered 0 ⟨1⟩] := by
  decide +kernel

/-- **Without the signal everybody is closed.** A loop that ends by itself has taken all registrations
that were accepted, and has closed the sink of each once. -/
theorem all_closed_without_signal (timeLimit : Nat) (counting : Bool) (ms : List Move)
    (hms : Obliging ms) (hquiet : Move.signal ∉ ms) :
    let h := run timeLimit counting ms
    h.ended = true → ∀ n < (registrations ((fresh timeLimit counting).admittedIn ms)).length,
      closings n h.history = 1 := by
  intro h hended n hn
  have hflow : h.Flow ((fresh timeLimit counting).admittedIn ms) ((fresh timeLimit counting).takenIn ms) :=
    moves_flow (fresh_flow timeLimit counting) ms
  have hsignal : h.signalled = false := signalled_moves (fresh timeLimit counting) hquiet
  have hopen : h.openBranches = [] := by
    rcases hflow.ending (hflow.past hended) with hover | hover
    · rw [hsignal] at hover
      cases hover
    · exact hover
  rw [hflow.registrations_eq (Or.inr hsignal), hflow.waiting_eq_nil hopen .control,
    ← registrations_append, List.append_nil] at hn
  have hnth := closings_nth (run_chronicled timeLimit counting hms)
    (run_enrolled timeLimit counting ms) hended n
  rwa [if_pos hn] at hnth

end Law

end Hub

end VoiceRelay
