import VoiceRelay.Proofs.Dispatch

/-!
# The life of a sink

A sink that the hub takes into its set is closed once: when it does not accept a text, when its id is
unregistered or registered again, or after the loop. These ways can meet on one id, since a text may
be refused and the id be unregistered afterwards; still each sink leaves by the first of them only. No
text is handed to a sink that was closed or that has failed before.

**Design.** `Admits` tells which deed may come after a history, and a history is `Lawful` if every deed
in it could come after those before. That the hub writes lawful histories is one walk through its
functions; what a lawful history says of a registration is an induction on the history alone.

**Results.**

- `Lawful.closings_add`: a registration is open or was closed, and once.
- `Lawful.silent_after`: nothing is handed to a registration after it was closed or has failed.
- `step_annals`: every turn keeps the history lawful.
- `closed_once`: the life of every sink in every run.
-/

namespace VoiceRelay

namespace Hub

section Defs

/-- Whether a deed may come after a history: a registration has a new number, and only an open
registration that has accepted everything is handed a text, and only an open one is closed. -/
def Admits (past : List Deed) : Deed → Prop
  | .registered n _ => ∀ id, Deed.registered n id ∉ past
  | .handed n _ _ => isOpen n past = true ∧ ∀ x ∈ handedTo n past, x.2 = true
  | .closed n => isOpen n past = true
  | .dispatched _ => True
  | .counted _ => True

/-- Every deed of a history could come after those before it. -/
def Lawful : List Deed → Prop
  | [] => True
  | d :: past => Admits past d ∧ Lawful past

/-- The history of a hub is lawful, and the numbers in it were given out. -/
structure Annals (h : Hub) : Prop where
  lawful : Lawful h.history
  born : ∀ n id, Deed.registered n id ∈ h.history → n < h.serials

end Defs

section Histories

variable {n : Nat} {past : List Deed}

@[simp] theorem closings_cons_registered (m : Nat) (id : SubscriberId) :
    closings n (.registered m id :: past) = closings n past := rfl

@[simp] theorem closings_cons_handed (m : Nat) (text : String) (ok : Bool) :
    closings n (.handed m text ok :: past) = closings n past := rfl

@[simp] theorem closings_cons_dispatched (e : Envelope) :
    closings n (.dispatched e :: past) = closings n past := rfl

@[simp] theorem closings_cons_counted (size : Nat) :
    closings n (.counted size :: past) = closings n past := rfl

@[simp] theorem closings_cons_closed (m : Nat) :
    closings n (.closed m :: past) = closings n past + if m = n then 1 else 0 := by
  simp [closings, List.countP_cons]

theorem closings_pos (hmem : Deed.closed n ∈ past) : 0 < closings n past :=
  List.countP_pos_iff.2 ⟨_, hmem, beq_self_eq_true n⟩

theorem mem_handedTo {text : String} {ok : Bool} (hmem : Deed.handed n text ok ∈ past) :
    (text, ok) ∈ handedTo n past := by
  induction past with
  | nil => cases hmem
  | cons d past ih =>
    rcases List.mem_cons.1 hmem with rfl | hpast
    · simp
    · have hold := ih hpast
      cases d with
      | handed m text' ok' =>
        rw [handedTo_handed]
        exact List.mem_append_left _ hold
      | registered m id | closed m | dispatched e | counted size => exact hold

/-- A number that was not given out is neither open nor closed. -/
theorem Lawful.unregistered (h : Lawful past) (hnew : ∀ id, Deed.registered n id ∉ past) :
    isOpen n past = false ∧ closings n past = 0 := by
  induction past with
  | nil => exact ⟨rfl, rfl⟩
  | cons d past ih =>
    obtain ⟨hopen, hclosings⟩ := ih h.2 fun id hmem => hnew id (List.mem_cons_of_mem _ hmem)
    cases d with
    | registered m id =>
      have hm : m ≠ n := by
        rintro rfl
        exact hnew id List.mem_cons_self
      exact ⟨by simp [hm, hopen], by simpa using hclosings⟩
    | closed m =>
      have hm : m ≠ n := by
        rintro rfl
        have hwas : isOpen m past = true := h.1
        rw [hopen] at hwas
        cases hwas
      exact ⟨by simp [hopen], by simp [hm, hclosings]⟩
    | handed m text ok => exact ⟨by simpa using hopen, by simpa using hclosings⟩
    | dispatched e => exact ⟨by simpa using hopen, by simpa using hclosings⟩
    | counted size => exact ⟨by simpa using hopen, by simpa using hclosings⟩

/-- **A registration is open, or it was closed, and once.** -/
theorem Lawful.closings_add (h : Lawful past) {id : SubscriberId}
    (hmem : Deed.registered n id ∈ past) :
    closings n past + (isOpen n past).toNat = 1 := by
  induction past with
  | nil => cases hmem
  | cons d past ih =>
    rcases List.mem_cons.1 hmem with rfl | hpast
    · -- The number is new here, so it was never closed before.
      obtain ⟨-, hclosings⟩ := Lawful.unregistered h.2 h.1
      simp [hclosings]
    · have hrest := ih h.2 hpast
      cases d with
      | registered m id' =>
        have hm : m ≠ n := by
          rintro rfl
          exact h.1 id hpast
        simpa [beq_eq_false_iff_ne.2 hm] using hrest
      | closed m =>
        by_cases hm : m = n
        · subst hm
          have hwas : isOpen m past = true := h.1
          rw [hwas] at hrest
          simpa using hrest
        · simpa [hm, beq_eq_false_iff_ne.2 hm] using hrest
      | handed m text ok => simpa using hrest
      | dispatched e => simpa using hrest
      | counted size => simpa using hrest

theorem Lawful.append (earlier : List Deed) {later : List Deed}
    (h : Lawful (later ++ earlier)) : Lawful earlier := by
  induction later with
  | nil => exact h
  | cons d later ih => exact ih h.2

/-- What was closed is not open. -/
theorem Lawful.not_open (h : Lawful past) (hmem : Deed.closed n ∈ past) :
    isOpen n past = false := by
  have hpos := closings_pos hmem
  rw [← Bool.not_eq_true]
  intro hopen
  have hreg : ∃ id, Deed.registered n id ∈ past := by
    by_contra hnone
    obtain ⟨hclosed, -⟩ := h.unregistered fun id hid => hnone ⟨id, hid⟩
    rw [hopen] at hclosed
    cases hclosed
  obtain ⟨id, hid⟩ := hreg
  have hadd := h.closings_add hid
  rw [hopen, Bool.toNat_true] at hadd
  omega

/-- **Nothing is handed to a registration after it was closed or has failed.** -/
theorem Lawful.silent_after {later earlier : List Deed} {d : Deed}
    (h : Lawful (later ++ d :: earlier))
    (hd : d = .closed n ∨ ∃ text, d = .handed n text false) (text : String) (ok : Bool) :
    Deed.handed n text ok ∉ later := by
  induction later with
  | nil => exact List.not_mem_nil
  | cons d' later ih =>
    intro hmem
    rcases List.mem_cons.1 hmem with rfl | hmem
    · obtain ⟨hopen, hclean⟩ := h.1
      rcases hd with rfl | ⟨text', rfl⟩
      · rw [Lawful.not_open h.2 (by simp)] at hopen
        cases hopen
      · have hbad := hclean (text', false) (mem_handedTo (by simp))
        cases hbad
    · exact ih h.2 hmem

/-- A number stands for one id. -/
theorem Lawful.id_eq (h : Lawful past) {id id' : SubscriberId}
    (hmem : Deed.registered n id ∈ past) (hmem' : Deed.registered n id' ∈ past) : id = id' := by
  induction past with
  | nil => cases hmem
  | cons d past ih =>
    rcases List.mem_cons.1 hmem with rfl | hpast
    · rcases List.mem_cons.1 hmem' with heq | hpast'
      · cases heq
        rfl
      · exact absurd hpast' (h.1 id')
    · rcases List.mem_cons.1 hmem' with rfl | hpast'
      · exact absurd hpast (h.1 id)
      · exact ih h.2 hpast hpast'

/-- A text is handed to several open registrations, none of which has failed. -/
theorem lawful_handed {subs : List Subscriber} (text : String) (ok : Subscriber → Bool)
    (h : Lawful past) (hnodup : (subs.map (·.serial)).Nodup)
    (hsubs : ∀ s ∈ subs, isOpen s.serial past = true ∧ ∀ x ∈ handedTo s.serial past, x.2 = true) :
    Lawful ((subs.map fun s => Deed.handed s.serial text (ok s)).reverse ++ past) := by
  induction subs generalizing past with
  | nil => exact h
  | cons s subs ih =>
    rw [List.map_cons, List.reverse_cons, List.append_assoc]
    rw [List.map_cons, List.nodup_cons] at hnodup
    refine ih ⟨hsubs s List.mem_cons_self, h⟩ hnodup.2 fun t ht => ?_
    have hne : s.serial ≠ t.serial := fun heq => hnodup.1 (heq ▸ List.mem_map_of_mem ht)
    simpa [hne] using hsubs t (List.mem_cons_of_mem _ ht)

end Histories

section Writing

variable {h h' : Hub} {doomed : SubscriberId → Prop}

theorem Kept.open_of_mem (hk : h.Kept doomed) {s : Subscriber} (hs : s ∈ h.subscribers) :
    isOpen s.serial h.history = true := (hk.books.present _).2 ⟨s, hs, rfl⟩

theorem Annals.congr (ha : h.Annals) (hhistory : h'.history = h.history)
    (hserials : h'.serials = h.serials) : h'.Annals where
  lawful := by
    rw [hhistory]
    exact ha.lawful
  born := by
    rw [hhistory, hserials]
    exact ha.born

/-- An open registration may be closed. -/
theorem Annals.close (ha : h.Annals) {n : Nat} (hopen : isOpen n h.history = true)
    (hhistory : h'.history = .closed n :: h.history) (hserials : h'.serials = h.serials) :
    h'.Annals where
  lawful := by
    rw [hhistory]
    exact ⟨hopen, ha.lawful⟩
  born m id hmem := by
    rw [hhistory] at hmem
    rcases List.mem_cons.1 hmem with heq | hmem
    · cases heq
    · rw [hserials]
      exact ha.born m id hmem

theorem remove_annals (hk : h.Kept doomed) (ha : h.Annals) (id : SubscriberId) :
    (h.remove id).Annals := by
  unfold remove
  split
  · exact ha
  · next t hsome =>
    have hopen := hk.open_of_mem (List.mem_of_find?_eq_some hsome)
    simp only
    split
    all_goals exact ha.close hopen rfl rfl

theorem removeAll_annals (hk : h.Kept doomed) (ha : h.Annals) (ids : List SubscriberId) :
    (h.removeAll ids).Annals := by
  induction ids generalizing h doomed with
  | nil => exact ha
  | cons id ids ih =>
    unfold removeAll
    split
    · exact ha
    · exact ih (remove_kept hk id) (remove_annals hk ha id)

/-- The number of a new registration was never given out before. -/
theorem register_annals (hk : h.Kept doomed) (ha : h.Annals) (id : SubscriberId) (sink : Sink) :
    (h.register id sink).Annals := by
  have hjoined : Annals { h with
      history := .registered h.serials id :: h.history
      serials := h.serials + 1 } := by
    refine ⟨⟨fun id' hmem => Nat.lt_irrefl _ (ha.born _ id' hmem), ha.lawful⟩, fun n id' hmem => ?_⟩
    rcases List.mem_cons.1 hmem with heq | hmem
    · cases heq
      exact Nat.lt_succ_self _
    · exact Nat.lt_succ_of_lt (ha.born n id' hmem)
  unfold register
  simp only
  split
  · exact hjoined.congr rfl rfl
  · next t hsome =>
    have hopen := hk.open_of_mem (List.mem_of_find?_eq_some hsome)
    split
    all_goals
      refine hjoined.close (n := t.serial) ?_ rfl rfl
      simp [hopen]

/-- A text is handed to everyone in the set. -/
theorem handAll_annals (hk : h.Kept Nobody) (ha : h.Annals) (e : Envelope) :
    ((h.note (.dispatched e)).handAll e.toJson).Annals where
  lawful := by
    refine lawful_handed _ _ ⟨trivial, ha.lawful⟩ hk.books.serials fun s hs => ?_
    exact ⟨hk.open_of_mem hs, hk.books.clean s hs id⟩
  born n id hmem := by
    rcases List.mem_append.1 hmem with hmem | hmem
    · obtain ⟨s, -, heq⟩ := List.mem_map.1 (List.mem_reverse.1 hmem)
      cases heq
    · rcases List.mem_cons.1 hmem with heq | hmem
      · cases heq
      · exact ha.born n id hmem

theorem broadcast_annals (hk : h.Kept Nobody) (ha : h.Annals) (e : Envelope) :
    (h.broadcast e).1.Annals := by
  have hall := removeAll_annals (handAll_kept hk e) (handAll_annals hk ha e)
    ((h.subscribers.filter fun s => !takes h.timeLimit s).map (·.id))
  unfold broadcast
  simp only
  split
  all_goals exact hall.congr rfl rfl

theorem obey_annals (hk : h.Kept Nobody) (ha : h.Annals) (c : Control) : (h.obey c).Annals := by
  cases c with
  | register id sink => exact register_annals hk ha id sink
  | unregister id => exact remove_annals hk ha id
  | count =>
    refine ⟨⟨trivial, ha.lawful⟩, fun n id hmem => ?_⟩
    rcases List.mem_cons.1 hmem with heq | hmem
    · cases heq
    · exact ha.born n id hmem

theorem shut_annals (ha : h.Annals) (b : Branch) : (h.shut b).Annals := by
  obtain ⟨loopOver, heq⟩ := shut_same h b
  rw [heq]
  exact ha.congr rfl rfl

/-- **Every turn keeps the annals.** -/
theorem step_annals (hk : h.Kept Nobody) (ha : h.Annals) (b : Branch) : (h.step b).Annals := by
  have hturn := h.step_turns b
  generalize h.step b = h' at *
  cases hturn with
  | idle _ => exact ha
  | signal _ | last _ _ => exact ha.congr rfl rfl
  | @goodbye s _ _ hs =>
    have hmem : s ∈ h.subscribers := by
      rw [hs]
      exact List.mem_cons_self
    exact ha.close (hk.open_of_mem hmem) rfl rfl
  | @control c rest _ hcontrol =>
    have hk' : { h with control := rest }.Kept Nobody :=
      { hk with orders := fun id sink hmem => hk.orders id sink (by
          rw [hcontrol]
          exact List.mem_cons_of_mem _ hmem) }
    exact obey_annals hk' (ha.congr rfl rfl) c
  | value _ hp =>
    obtain ⟨-, hhistory, hserials⟩ := hp.same
    exact broadcast_annals (hp.kept hk) (ha.congr hhistory hserials) _
  | empty _ _ _ => exact shut_annals ha b

theorem move_annals (hk : h.Kept Nobody) (ha : h.Annals) (m : Move) : (h.move m).Annals := by
  rcases h.move_cases m with ⟨b, rfl⟩ | ⟨-, _, _, _, _, _, _, _, heq⟩
  · exact step_annals hk ha b
  · rw [heq]
    exact ha.congr rfl rfl

end Writing

section Living

variable {h : Hub}

theorem handedTo_grows {n : Nat} {past : List Deed} {x : String × Bool} (hx : x ∈ handedTo n past)
    (deeds : List Deed) : x ∈ handedTo n (deeds ++ past) := by
  induction deeds with
  | nil => exact hx
  | cons d deeds ih =>
    cases d with
    | handed m text ok =>
      rw [List.cons_append, handedTo_handed]
      exact List.mem_append_left _ ih
    | registered m id | closed m | dispatched e | counted size => exact ih

/-- A loop that is over stays so. -/
theorem loopOver_moves (hover : h.loopOver = true) (ms : List Move) : (h.moves ms).loopOver = true := by
  induction ms generalizing h with
  | nil => exact hover
  | cons m ms ih =>
    refine ih ?_
    rcases h.move_cases m with ⟨b, rfl⟩ | ⟨-, _, _, _, _, _, _, _, heq⟩
    · exact (step_of_loopOver hover b).1
    · rw [heq]
      exact hover

/-- Everybody in the set is in the history. -/
theorem registered_of_mem (hn : h.Named) {s : Subscriber} (hs : s ∈ h.subscribers) :
    Deed.registered s.serial s.id ∈ h.history := by
  obtain ⟨d, hd, heq⟩ := List.mem_filterMap.1 (hn s hs)
  cases d with
  | registered n id =>
    simp only [Option.some.injEq, Prod.mk.injEq] at heq
    rwa [← heq.1, ← heq.2]
  | handed _ _ _ | closed _ | dispatched _ | counted _ => cases heq

/-- Each registration is in the set and was not closed, or it is not and was closed once. -/
theorem closings_eq (hk : h.Kept Nobody) (ha : h.Annals) {n : Nat} {id : SubscriberId}
    (hmem : Deed.registered n id ∈ h.history) :
    (h.Holds n → closings n h.history = 0) ∧ (¬ h.Holds n → closings n h.history = 1) := by
  have hadd := ha.lawful.closings_add hmem
  rw [hk.holds_iff]
  constructor
  · intro hopen
    rw [hopen, Bool.toNat_true] at hadd
    omega
  · intro hclosed
    rw [Bool.not_eq_true] at hclosed
    rw [hclosed, Bool.toNat_false] at hadd
    omega

/-- What is known of a hub between two turns of a run. -/
structure Chronicled (h : Hub) : Prop where
  kept : h.Kept Nobody
  annals : h.Annals
  named : h.Named
  vacant : h.ended = true → h.subscribers = []

theorem Chronicled.moves (hc : h.Chronicled) {ms : List Move} (hms : Obliging ms) :
    (h.moves ms).Chronicled where
  kept := moves_kept hc.kept hms
  annals := moves_keep (fun _ m hk ha => move_annals hk ha m) hc.kept hc.annals hms
  named := moves_keep (fun _ m hk hn => move_named hk hn m) hc.kept hc.named hms
  vacant := moves_vacant h hc.vacant ms

theorem run_chronicled (timeLimit : Nat) (counting : Bool) {ms : List Move} (hms : Obliging ms) :
    (run timeLimit counting ms).Chronicled := by
  refine Chronicled.moves ⟨fresh_kept timeLimit counting, ⟨trivial, ?_⟩, ?_, fun _ => rfl⟩ hms
  · intro n id hmem
    cases hmem
  · intro s hs
    cases hs

/-- A control command that is obeyed is among the items taken. -/
theorem mem_taken_control {c : Control} {rest : List Control} (hready : h.ready .control = true)
    (hq : h.control = c :: rest) : Item.control c ∈ h.taken (.turn .control) := by
  have hw : h.waiting .control = .control c :: rest.map .control := by
    rw [waiting, hq]
    rfl
  rw [taken_cons h hready hw]
  exact List.mem_cons_self

/-- A subscriber that accepted everything stays if nothing is done about its id and the loop is not
over. -/
theorem not_leaves {s : Subscriber} {b : Branch} (hready : h.ready b = true)
    (haccepted : ∀ x ∈ handedTo s.serial (h.step b).history, x.2 = true)
    (hitems : ∀ i ∈ h.taken (.turn b),
      i ≠ .control (.unregister s.id) ∧ ∀ sink, i ≠ .control (.register s.id sink))
    (hlive : h.loopOver = false) : ¬ h.Leaves s b := by
  intro hleaves
  cases hleaves with
  | failed hlast =>
    have hbad := haccepted _ (List.mem_of_getLast? hlast)
    cases hbad
  | unregistered hq => exact (hitems _ (mem_taken_control hready hq)).1 rfl
  | replaced hq => exact (hitems _ (mem_taken_control hready hq)).2 _ rfl
  | left hover _ =>
    rw [hlive] at hover
    cases hover

/-- A move in which a subscriber has no reason to leave leaves it in the set under its id. -/
theorem Chronicled.stays (hc : h.Chronicled) {s : Subscriber} (hs : s ∈ h.subscribers) {m : Move}
    (hstays : ∀ b, m = .turn b → h.ready b = true → ¬ h.Leaves s b) :
    ∃ t ∈ (h.move m).subscribers, t.serial = s.serial ∧ t.id = s.id := by
  rcases h.move_cases m with ⟨b, rfl⟩ | ⟨-, _, _, _, _, _, _, _, heq⟩
  · by_cases hready : h.ready b = true
    · obtain ⟨t, ht, hserial⟩ := (step_holds hc.kept hs hready).2 (hstays b rfl hready)
      -- The number is that of the old registration, and a number stands for one id.
      have hnow := registered_of_mem (step_named hc.kept hc.named b) ht
      obtain ⟨deeds, hdeeds, -⟩ := step_grows h b
      have hthen : Deed.registered s.serial s.id ∈ (h.step b).history := by
        rw [hdeeds]
        exact List.mem_append_right _ (registered_of_mem hc.named hs)
      rw [hserial] at hnow
      exact ⟨t, ht, hserial, (step_annals hc.kept hc.annals b).lawful.id_eq hnow hthen⟩
    · have hidle : h.move (.turn b) = h := by simp [move, step, hready]
      rw [hidle]
      exact ⟨s, hs, rfl, rfl⟩
  · rw [heq]
    exact ⟨s, hs, rfl, rfl⟩

/-- **A sink that nothing removes stays in the set**: all its texts are accepted, its id is neither
unregistered nor registered again, and the loop is not over. -/
theorem Chronicled.stays_moves (hc : h.Chronicled) {more : List Move} (hmore : Obliging more)
    {s : Subscriber} (hs : s ∈ h.subscribers)
    (haccepted : ∀ x ∈ handedTo s.serial (h.moves more).history, x.2 = true)
    (hitems : ∀ i ∈ h.takenIn more,
      i ≠ .control (.unregister s.id) ∧ ∀ sink, i ≠ .control (.register s.id sink))
    (hlive : (h.moves more).loopOver = false) :
    ∃ t ∈ (h.moves more).subscribers, t.serial = s.serial ∧ t.id = s.id := by
  induction more generalizing h s with
  | nil => exact ⟨s, hs, rfl, rfl⟩
  | cons m more ih =>
    have hfirst : Obliging [m] := fun id sink hmem =>
      hmore id sink (List.mem_cons.2 (Or.inl (List.mem_singleton.1 hmem)))
    have hrest : Obliging more := fun id sink hmem => hmore id sink (List.mem_cons_of_mem _ hmem)
    have hnext : (h.move m).Chronicled := hc.moves hfirst
    have hnow : h.loopOver = false := by
      rw [← Bool.not_eq_true]
      intro hover
      rw [loopOver_moves hover] at hlive
      cases hlive
    have hclean : ∀ x ∈ handedTo s.serial (h.move m).history, x.2 = true := by
      intro x hx
      obtain ⟨deeds, hdeeds, -⟩ := moves_grows (h.move m) more
      have hgrown : (h.moves (m :: more)).history = deeds ++ (h.move m).history := hdeeds
      exact haccepted x (hgrown ▸ handedTo_grows hx deeds)
    obtain ⟨t, ht, hserial, hid⟩ : ∃ t ∈ (h.move m).subscribers,
        t.serial = s.serial ∧ t.id = s.id := by
      refine hc.stays hs fun b hb hready => ?_
      subst hb
      exact not_leaves hready hclean (fun i hi => hitems i (List.mem_append_left _ hi)) hnow
    rw [← hserial] at haccepted ⊢
    rw [← hid] at hitems ⊢
    exact ih hnext hrest ht haccepted (fun i hi => hitems i (List.mem_append_right _ hi)) hlive

/-- **The life of a sink.** In every run in which closing a sink ends: a sink that was taken into the
set is in it and was not closed, or it is not and was closed once; so every sink was closed once when
the hub has ended. A turn closes those that leave in it, because a text handed to them is not accepted,
their id is unregistered or registered again, or the loop is over and it is their turn. Nothing is handed
to a sink after it was closed or has failed. A sink that accepts all texts, and whose id is neither
unregistered nor registered again, is not closed before the loop is over. -/
theorem closed_once (timeLimit : Nat) (counting : Bool) (ms : List Move) (hms : Obliging ms) :
    let h := run timeLimit counting ms
    (∀ n id, Deed.registered n id ∈ h.history →
        (h.Holds n → closings n h.history = 0) ∧ (¬ h.Holds n → closings n h.history = 1) ∧
          (h.ended = true → closings n h.history = 1)) ∧
      (∀ s ∈ h.subscribers, ∀ b, h.ready b = true →
        (closings s.serial (h.step b).history = 1 ↔ h.Leaves s b)) ∧
      (∀ n later d earlier, h.history = later ++ d :: earlier →
        (d = .closed n ∨ ∃ text, d = .handed n text false) →
          ∀ text ok, Deed.handed n text ok ∉ later) ∧
      ∀ more, Obliging more → ∀ s ∈ h.subscribers,
        (∀ x ∈ handedTo s.serial (h.moves more).history, x.2 = true) →
        (∀ i ∈ h.takenIn more,
          i ≠ .control (.unregister s.id) ∧ ∀ sink, i ≠ .control (.register s.id sink)) →
        (h.moves more).loopOver = false → closings s.serial (h.moves more).history = 0 := by
  intro h
  have hc : h.Chronicled := run_chronicled timeLimit counting hms
  refine ⟨fun n id hmem => ?_, fun s hs b hready => ?_, fun n later d earlier heq hd text ok => ?_,
    fun more hmore s hs haccepted hitems hlive => ?_⟩
  · obtain ⟨hin, hout⟩ := closings_eq hc.kept hc.annals hmem
    refine ⟨hin, hout, fun hended => hout ?_⟩
    rintro ⟨s, hs, -⟩
    rw [hc.vacant hended] at hs
    cases hs
  · obtain ⟨deeds, hdeeds, -⟩ := step_grows h b
    have hmem : Deed.registered s.serial s.id ∈ (h.step b).history := by
      rw [hdeeds]
      exact List.mem_append_right _ (registered_of_mem hc.named hs)
    obtain ⟨hin, hout⟩ := closings_eq (step_kept hc.kept b) (step_annals hc.kept hc.annals b) hmem
    have hholds := step_holds hc.kept hs hready
    constructor
    · intro hone
      by_contra hstays
      rw [hin (hholds.2 hstays)] at hone
      cases hone
    · intro hleaves
      exact hout fun hstill => hholds.1 hstill hleaves
  · have hlawful : Lawful (later ++ d :: earlier) := heq ▸ hc.annals.lawful
    exact hlawful.silent_after hd text ok
  · have hc' := hc.moves hmore
    obtain ⟨t, ht, hserial, -⟩ := hc.stays_moves hmore hs haccepted hitems hlive
    have hmem := registered_of_mem hc'.named ht
    rw [hserial] at hmem
    exact (closings_eq hc'.kept hc'.annals hmem).1 ⟨t, ht, hserial⟩

/-- Four sinks, each of which leaves in another way: the first is replaced, the third refuses a text
and its id is unregistered afterwards, the fourth is unregistered, the second is there at the end. -/
theorem closed_once_four_ways :
    let steady : Sink := ⟨fun _ => .accepts 0, true⟩
    let broken : Sink := ⟨fun _ => .refuses 0, true⟩
    let ms : List Move := [.offer (.control (.register ⟨1⟩ steady)), .turn .control,
      .offer (.control (.register ⟨1⟩ steady)), .turn .control,
      .offer (.control (.register ⟨2⟩ broken)), .turn .control, .offer (.server "a"),
      .turn .server, .offer (.control (.unregister ⟨2⟩)), .turn .control,
      .offer (.control (.register ⟨3⟩ steady)), .turn .control,
      .offer (.control (.unregister ⟨3⟩)), .turn .control, .signal, .turn .signal,
      .turn .farewell, .turn .farewell]
    let h := run 5 false ms
    Obliging ms ∧ h.ended = true ∧ closings 0 h.history = 1 ∧ closings 1 h.history = 1 ∧
      closings 2 h.history = 1 ∧ closings 3 h.history = 1 := by
  intro steady broken ms h
  have hms : Obliging ms := by
    intro id sink hmem
    simp only [ms, List.mem_cons, List.not_mem_nil, reduceCtorEq, false_or, or_false,
      Move.offer.injEq, Item.control.injEq, Control.register.injEq] at hmem
    rcases hmem with ⟨-, rfl⟩ | ⟨-, rfl⟩ | ⟨-, rfl⟩ | ⟨-, rfl⟩
    all_goals rfl
  have hended : h.ended = true := by decide +kernel
  obtain ⟨h0, h1, h2, h3⟩ : Deed.registered 0 ⟨1⟩ ∈ h.history ∧
      Deed.registered 1 ⟨1⟩ ∈ h.history ∧ Deed.registered 2 ⟨2⟩ ∈ h.history ∧
        Deed.registered 3 ⟨3⟩ ∈ h.history := by decide +kernel
  have honce := fun n id hmem => ((closed_once 5 false ms hms).1 n id hmem).2.2 hended
  exact ⟨hms, hended, honce 0 _ h0, honce 1 _ h1, honce 2 _ h2, honce 3 _ h3⟩

end Living

end Hub

end VoiceRelay
