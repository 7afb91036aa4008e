import VoiceRelay.Shell.Run

/-!
# Time in scripts

Only waiting takes time, and nothing takes it back: whatever a command does, it ends no earlier than it began,
and what had been written by its beginning stays written. A limit on a program and the end of a job take
back only what would have been written later.

**Design.** `Machine.Goes` is what one move of a script keeps: the time goes on, and the pieces written by
now stay on their streams. It is transitive, so every function that runs commands gets one lemma that says it
for the function if it holds of the commands it runs, and `step_goes` has one case for each kind of command.

**Results.**

- `Run.step_goes`: one command, if the commands in it go on.
- `Run.run_goes`: every command to every depth, by induction on the depth.
- `Run.shown_sequence`: a script whose time is spent shows nothing, whatever comes after.
- `Run.start_goes`: the same for the programs of the host.
-/

namespace VoiceRelay

namespace Shell

namespace Machine

/-- Time has not gone back, and nothing that was written up to then was taken back. -/
structure Goes (m m' : Machine) : Prop where
  clock : m.clock ≤ m'.clock
  kept : ∀ k, ∀ w ∈ m.piecesOf k, w.time ≤ m.clock → w ∈ m'.piecesOf k

section Steps

variable {m m' m'' part : Machine}

theorem Goes.refl (m : Machine) : m.Goes m := ⟨Nat.le_refl _, fun _ _ hw _ => hw⟩

theorem Goes.trans (h : m.Goes m') (h' : m'.Goes m'') : m.Goes m'' :=
  ⟨Nat.le_trans h.clock h'.clock, fun k w hw htime =>
    h'.kept k w (h.kept k w hw htime) (Nat.le_trans htime h.clock)⟩

/-- What changes neither the time nor the streams. -/
theorem Goes.of_same (hclock : m'.clock = m.clock) (hstreams : m'.streams = m.streams) : m.Goes m' := by
  refine ⟨Nat.le_of_eq hclock.symm, fun k w hw _ => ?_⟩
  rwa [piecesOf, hstreams]

theorem piecesOf_put_of_ne {k k' : Nat} (hne : k' ≠ k) (m : Machine) (ps : List Written) :
    ({ m with streams := put k ps m.streams } : Machine).piecesOf k' = m.piecesOf k' := by
  have hlookup : ∀ l : List (Nat × List Written), (l.filter (·.1 != k)).lookup k' = l.lookup k' := by
    intro l
    induction l with
    | nil => rfl
    | cons p l ih =>
      obtain ⟨i, ps⟩ := p
      by_cases hi : i = k
      · subst hi
        have hother : (k' == i) = false := by simpa using hne
        rw [List.filter_cons_of_neg (by simp), List.lookup_cons, hother]
        exact ih
      · rw [List.filter_cons_of_pos (by simpa using hi), List.lookup_cons, List.lookup_cons, ih]
  have hk : (k' == k) = false := by simpa using hne
  simp [piecesOf, put, List.lookup_cons, hk, hlookup]

theorem emit_goes (m : Machine) (number : Nat) (text : Octets) : m.Goes (m.emit number text) := by
  unfold emit
  split
  · exact .refl m
  · split
    · next k _ =>
      refine ⟨Nat.le_refl _, fun k' w hw _ => ?_⟩
      by_cases hk : k' = k
      · subst hk
        rw [piecesOf_put]
        exact List.mem_cons_of_mem _ hw
      · rwa [piecesOf_put_of_ne hk]
    · exact .of_same rfl rfl
    · exact .refl m

theorem ended_goes (m : Machine) (status : Nat) : m.Goes (m.ended status) := .of_same rfl rfl

theorem emit_ended_goes (m : Machine) (number : Nat) (text : Octets) (status : Nat) :
    m.Goes ((m.emit number text).ended status) := (emit_goes m number text).trans (ended_goes _ status)

theorem complain_goes (m : Machine) (what : Octets) : m.Goes (m.complain what) := emit_goes _ _ _

theorem complain_ended_goes (m : Machine) (what : Octets) (status : Nat) :
    m.Goes ((m.complain what).ended status) := (m.complain_goes what).trans (ended_goes _ status)

theorem took_goes (m : Machine) (o : Tools.Outcome) : m.Goes (m.took o) :=
  ((emit_goes m _ _).trans (emit_goes _ _ _)).trans (.of_same rfl rfl)

theorem rejoin_goes (h : m.Goes part) : m.Goes (m.rejoin part) := ⟨h.clock, h.kept⟩

theorem set_goes (m : Machine) (name value : Octets) : m.Goes (m.set name value) := .of_same rfl rfl

theorem restore_goes (m : Machine) (old : Octets × Option Octets) : m.Goes (m.restore old) := by
  unfold restore
  split <;> exact .of_same rfl rfl

/-- What goes on step by step goes on. -/
theorem foldl_goes {α β : Type} (state : β → Machine) {f : β → α → β}
    (hf : ∀ b a, (state b).Goes (state (f b a))) (l : List α) (b : β) :
    (state b).Goes (state (l.foldl f b)) := by
  induction l generalizing b with
  | nil => exact .refl _
  | cons a l ih => exact (hf b a).trans (ih _)

theorem restoreAll_goes (m : Machine) (olds : List (Octets × Option Octets)) :
    m.Goes (olds.foldl restore m) := foldl_goes id (fun (m : Machine) old => m.restore_goes old) olds m

end Steps

end Machine

namespace Expansion

section Words

variable {capture : Capture}

/-- Whatever command is run for its output, time goes on. -/
def Capture.Goes (capture : Capture) : Prop := ∀ c m, Machine.Goes m (capture c m).2

/-- What is made of a word, unless it could not be expanded. -/
theorem onWord_goes {m : Machine} {r : Result} {f : List Item → Machine → Result} (hr : m.Goes r.2)
    (hf : ∀ is m', Machine.Goes m' (f is m').2) : m.Goes (match r with
      | (.ok is, m) => f is m
      | r => r).2 := by
  obtain ⟨_ | is, m'⟩ := r
  · exact hr
  · exact hr.trans (hf is m')

theorem parameter_goes (quoted : Bool) (name : Octets) (taking : Taking) {word : Machine → Result}
    (hword : ∀ m, Machine.Goes m (word m).2) (m : Machine) :
    m.Goes (parameter quoted name taking word m).2 := by
  have hm := hword m
  unfold parameter
  cases taking with
  | plain =>
    simp only
    split
    · exact .refl m
    · split <;> exact .refl m
  | length =>
    simp only
    repeat' split
    all_goals exact .refl m
  | default orEmpty | instead orEmpty =>
    simp only
    split
    all_goals first | exact .refl m | exact onWord_goes hm fun _ m' => .refl m'
  | assign orEmpty =>
    simp only
    split
    · exact .refl m
    · exact onWord_goes hm fun _ m' => m'.set_goes _ _
  | complain orEmpty =>
    simp only
    split
    · exact .refl m
    · exact onWord_goes hm fun _ m' => .refl m'
  | dropFront longest | dropBack longest => exact onWord_goes hm fun _ m' => .refl m'

theorem items_goes (hcapture : Capture.Goes capture) (n : Nat) (w : Word) (m : Machine) :
    m.Goes (items capture n w m).2 := by
  induction n generalizing w m with
  | zero => exact .refl m
  | succ n ih =>
    unfold items
    refine Machine.foldl_goes Prod.snd (fun r p => ?_) w (Except.ok [], m)
    rcases r with ⟨_ | front, m⟩
    · exact .refl m
    · cases p with
      | text quoted cs => exact .refl m
      | parameter quoted name taking word =>
        have hpart := parameter_goes quoted name taking (ih word) m
        simp only
        generalize parameter quoted name taking (items capture n word) m = r at *
        obtain ⟨_ | back, m'⟩ := r <;> exact hpart
      | output quoted c => exact hcapture c m
      | sum quoted word =>
        have hword := ih word m
        simp only
        generalize items capture n word m = r at *
        obtain ⟨_ | is, m'⟩ := r
        · exact hword
        · simp only
          split
          · next heq =>
            split at heq
            · cases heq; exact hword.trans (.of_same rfl rfl)
            · cases heq
          · next heq =>
            split at heq
            · cases heq
            · cases heq; exact hword

theorem fields_goes (hcapture : Capture.Goes capture) (ws : List Word) (m : Machine) :
    m.Goes (fields capture ws m).2 := by
  unfold fields
  refine Machine.foldl_goes Prod.snd (fun r w => ?_) ws (Except.ok [], m)
  rcases r with ⟨_ | fs, m⟩
  · exact .refl m
  · have hitems := items_goes hcapture depth w m
    simp only
    generalize items capture depth w m = r at *
    obtain ⟨_ | is, m'⟩ := r <;> exact hitems

theorem text_goes (hcapture : Capture.Goes capture) (w : Word) (m : Machine) :
    m.Goes (text capture w m).2 := by
  have hitems := items_goes hcapture depth w m
  unfold text
  generalize items capture depth w m = r at *
  obtain ⟨_ | is, m'⟩ := r <;> exact hitems

end Words

end Expansion

namespace Run

/-- Whatever command is run, time goes on. -/
def Exec.Goes (exec : Exec) : Prop := ∀ tested c m, Machine.Goes m (exec tested c m).1

section Parts

variable {exec : Exec} {m : Machine} {r : Machine × Flow} {f : Machine → Machine × Flow}

/-- What follows if something went on. -/
theorem andThen_goes (hr : m.Goes r.1) (hf : ∀ m', Machine.Goes m' (f m').1) :
    m.Goes (match r with
      | (m, .on) => f m
      | r => r).1 := by
  obtain ⟨m', flow⟩ := r
  cases flow with
  | on => exact hr.trans (hf m')
  | leave | back | breaks _ | again _ | spent => exact hr

theorem script_goes (hexec : exec.Goes) (depth n : Nat) (text : Octets) (m : Machine) :
    m.Goes (script exec depth n text m).1 := by
  induction n generalizing text m with
  | zero => exact .refl m
  | succ n ih =>
    unfold script
    split
    · exact .refl m
    · exact (m.complain_goes _).trans (.of_same rfl rfl)
    · next c rest _ => exact andThen_goes (hexec false c m) fun m' => ih rest m'

theorem text_goes (hexec : exec.Goes) (cs : Octets) (m : Machine) : m.Goes (text exec cs m).1 :=
  script_goes hexec _ _ cs m

/-- What a shell promised to do at its end. -/
theorem promised_goes (hexec : exec.Goes) (m : Machine) (flow : Flow) : m.Goes (match m.farewell with
    | none => (m, flow)
    | some cs =>
      let (m', f') := text exec cs { m with farewell := none }
      (m'.ended m.status, if f' = Flow.spent then Flow.spent else flow)).1 := by
  split
  · exact .refl m
  · next cs _ =>
    have hstart : m.Goes { m with farewell := none } := .of_same rfl rfl
    exact hstart.trans ((text_goes hexec cs _).trans (.of_same rfl rfl))

theorem depart_goes (hexec : exec.Goes) (hr : m.Goes r.1) : m.Goes (depart exec r).1 := by
  obtain ⟨m', flow⟩ := r
  cases flow with
  | spent => exact hr
  | on | leave | back | breaks _ | again _ => exact hr.trans (promised_goes hexec m' _)

theorem apart_goes (hr : m.Goes r.1) : m.Goes (apart m r).1 := Machine.rejoin_goes hr

theorem subshell_goes (hexec : exec.Goes) (tested : Bool) (c : Command) (m : Machine) :
    m.Goes (subshell exec tested c m).1 := by
  have hstart : m.Goes { m with farewell := none } := .of_same rfl rfl
  exact apart_goes (depart_goes hexec (hstart.trans (hexec tested c _)))

theorem collect_goes (hf : ∀ m', Machine.Goes m' (f m').1) (m : Machine) :
    m.Goes (collect f m).2.1 := by
  have hstart (channels : List (Nat × Channel)) (fresh : Nat) :
      m.Goes { m with channels, fresh } := .of_same rfl rfl
  exact (hstart _ _).trans ((hf _).trans (.of_same rfl rfl))

theorem capture_goes (hexec : exec.Goes) : Expansion.Capture.Goes (capture exec) := fun c m =>
  (collect_goes (subshell_goes hexec false c) m).trans (.of_same rfl rfl)

theorem stages_goes (hexec : exec.Goes) (tested : Bool) (cs : List Command) (m : Machine) :
    m.Goes (stages exec tested cs m).1 := by
  induction cs generalizing m with
  | nil => exact .refl m
  | cons c cs ih =>
    cases cs with
    | nil => exact subshell_goes hexec tested c m
    | cons d cs =>
      have hfirst := collect_goes (subshell_goes hexec true c) m
      unfold stages
      generalize collect (subshell exec true c) m = r at *
      obtain ⟨text, m', flow⟩ := r
      have hinput (m : Machine) (input : Octets) : m.Goes { m with input } := .of_same rfl rfl
      cases flow with
      | on => exact hfirst.trans ((hinput m' text).trans ((ih _).trans (hinput _ _)))
      | leave | back | breaks _ | again _ | spent => exact hfirst

theorem background_goes (hexec : exec.Goes) (c : Command) (m : Machine) :
    m.Goes (background exec c m).1 := by
  have hstart : m.Goes { m with input := [], job := 1000 + m.jobs.length, jobs := [], farewell := none } :=
    .of_same rfl rfl
  -- The job begins at the same time as what follows it, so its time does not count here.
  exact ⟨Nat.le_refl _, (depart_goes hexec (hstart.trans (hexec false c _))).kept⟩

theorem checked_goes (tested : Bool) (hr : m.Goes r.1) : m.Goes (checked tested r).1 := by
  unfold checked
  split <;> exact hr

theorem repeated_goes {test body : Machine → Machine × Flow} (htest : ∀ m, Machine.Goes m (test m).1)
    (hbody : ∀ m, Machine.Goes m (body m).1) (whileTrue : Bool) (n last : Nat) (m : Machine) :
    m.Goes (repeated test body whileTrue n last m).1 := by
  induction n generalizing last m with
  | zero => exact .refl m
  | succ n ih =>
    have hm := htest m
    unfold repeated
    generalize test m = r at *
    obtain ⟨m', flow⟩ := r
    cases flow with
    | on =>
      simp only
      split
      · have hm' := hbody m'
        generalize body m' = r at *
        obtain ⟨m'', flow⟩ := r
        simp only
        split
        · exact hm.trans (hm'.trans (ih _ _))
        · exact hm.trans hm'
      · exact hm.trans (.of_same rfl rfl)
    | leave | back | breaks _ | again _ | spent => exact hm

theorem looped_goes (m : Machine) (hf : ∀ m', Machine.Goes m' (f m').1) : m.Goes (looped m f).1 := by
  have hstart (loops : Nat) : m.Goes { m with loops } := .of_same rfl rfl
  exact (hstart _).trans ((hf _).trans (.of_same rfl rfl))

theorem forEach_goes (name : Octets) {body : Machine → Machine × Flow}
    (hbody : ∀ m, Machine.Goes m (body m).1) (vs : List Octets) (m : Machine) :
    m.Goes (forEach name body vs m).1 := by
  induction vs generalizing m with
  | nil => exact .refl m
  | cons v vs ih =>
    have hm := (m.set_goes name v).trans (hbody _)
    unfold forEach
    generalize body (m.set name v) = r at *
    obtain ⟨m', flow⟩ := r
    simp only
    split
    · exact hm.trans (ih m')
    · exact hm

end Parts

section Redirections

variable {capture : Expansion.Capture} {f : Machine → Machine × Flow}

theorem openFile_goes {m m' : Machine} {number : Nat} {name : Octets} {behind : Bool}
    (h : openFile m number name behind = some m') : m.Goes m' := by
  unfold openFile at h
  simp only at h
  repeat' split at h
  all_goals first | cases h; exact .of_same rfl rfl | cases h

theorem redirect_goes (hcapture : Expansion.Capture.Goes capture) (r : Redirect) (m : Machine) :
    m.Goes (redirect capture r m).2 := by
  obtain ⟨number, direction, target⟩ := r
  have htarget := Expansion.text_goes hcapture target m
  unfold redirect
  simp only
  generalize Expansion.text capture target m = r at *
  obtain ⟨e | t, m'⟩ := r
  · exact htarget.trans (m'.complain_goes e)
  · refine htarget.trans ?_
    have hlead (channels : List (Nat × Channel)) : m'.Goes { m' with channels } := .of_same rfl rfl
    have hinput (input : Octets) : m'.Goes { m' with input } := .of_same rfl rfl
    cases direction with
    | document =>
      simp only
      split
      · exact hinput t
      · exact .refl m'
    | read =>
      simp only
      split
      · split
        · exact hinput _
        · exact .refl m'
      · exact m'.complain_goes _
    | write | append =>
      simp only
      split
      · next heq => exact openFile_goes heq
      · exact m'.complain_goes _
    | duplicate =>
      simp only
      repeat' split
      all_goals first | exact hlead _ | exact hinput _ | exact .refl m' | exact m'.complain_goes _

theorem redirectAll_goes (hcapture : Expansion.Capture.Goes capture) (rs : List Redirect) (m : Machine) :
    m.Goes (redirectAll capture rs m).2 := by
  unfold redirectAll
  refine Machine.foldl_goes Prod.snd (fun s r => ?_) rs (some (), m)
  obtain ⟨_ | u, m⟩ := s
  · exact .refl m
  · exact redirect_goes hcapture r m

theorem redirected_goes (hcapture : Expansion.Capture.Goes capture) (rs : List Redirect)
    (hf : ∀ m, Machine.Goes m (f m).1) (m : Machine) : m.Goes (redirected capture rs f m).1 := by
  have hall := redirectAll_goes hcapture rs m
  unfold redirected
  simp only
  generalize redirectAll capture rs m = r at *
  obtain ⟨_ | u, m'⟩ := r
  · exact hall.trans (.of_same rfl rfl)
  · exact hall.trans ((hf m').trans (.of_same rfl rfl))

end Redirections

section Builtins

variable {capture : Expansion.Capture} {exec : Exec}

theorem assign_goes (hcapture : Expansion.Capture.Goes capture) (ss : List (Octets × Word)) (m : Machine) :
    m.Goes (assign capture ss m).2 := by
  unfold assign
  refine Machine.foldl_goes Prod.snd (fun r s => ?_) ss (Except.ok (), m)
  obtain ⟨e | u, m⟩ := r
  · exact .refl m
  · have hvalue := Expansion.text_goes hcapture s.2 m
    simp only
    generalize Expansion.text capture s.2 m = r at *
    obtain ⟨e | v, m'⟩ := r
    · exact hvalue
    · exact hvalue.trans (m'.set_goes _ _)

theorem option_goes (on : Bool) (m : Machine) (c : Char) : m.Goes (option on m c) := by
  unfold option
  split <;> exact .of_same rfl rfl

theorem longOption_goes (on : Bool) (m : Machine) (name : Octets) : m.Goes (longOption on m name) := by
  unfold longOption
  split
  all_goals first | exact option_goes on m _ | exact .refl m

theorem set_goes (args : List Octets) (m : Machine) : m.Goes (set args m) := by
  fun_induction set args m with
  | case1 name r m ih | case2 name r m ih => exact (longOption_goes _ m name).trans ih
  | case3 m r => exact .of_same rfl rfl
  | case4 r m ih => exact ih
  | case5 c cs r m _ _ ih | case6 c cs r m _ ih =>
    exact (Machine.foldl_goes id (fun m c => option_goes _ m c) (c :: cs) m).trans ih
  | case7 m => exact .refl m
  | case8 => exact .of_same rfl rfl

theorem declare_goes (args : List Octets) (m : Machine) : m.Goes (declare args m) := by
  refine Machine.foldl_goes id (fun m a => ?_) args m
  simp only [id]
  split
  · exact m.set_goes _ _
  · exact .refl m

theorem giveAway_goes (args : List Octets) (m : Machine) : m.Goes (giveAway args m) :=
  (declare_goes args m).trans (.of_same rfl rfl)

theorem keepLocal_goes (args : List Octets) (m : Machine) : m.Goes (keepLocal args m) := by
  refine Machine.foldl_goes id (fun m a => ?_) args m
  refine Machine.Goes.trans ?_ (declare_goes [a] _)
  split <;> exact .of_same rfl rfl

theorem read_goes (args : List Octets) (m : Machine) : m.Goes (read args m) := by
  have hinput (input : Octets) : m.Goes { m with input } := .of_same rfl rfl
  have hshared (ps : List (Octets × Octets)) (m : Machine) :
      m.Goes (ps.foldl (fun m p => m.set p.1 p.2) m) :=
    Machine.foldl_goes id (fun (m : Machine) (p : Octets × Octets) => m.set_goes p.1 p.2) ps m
  exact ((hinput _).trans (hshared _ _)).trans (.of_same rfl rfl)

theorem sleep_goes (args : List Octets) (m : Machine) : m.Goes (sleep args m).1 := by
  unfold sleep
  split
  · split
    · exact .of_same rfl rfl
    · exact ⟨Nat.le_add_right _ _, fun _ _ hw _ => hw⟩
  · exact .of_same rfl rfl

theorem le_foldl_max (ns : List Nat) (n : Nat) : n ≤ ns.foldl max n := by
  induction ns generalizing n with
  | nil => exact Nat.le_refl n
  | cons k ns ih => exact Nat.le_trans (Nat.le_max_left n k) (ih _)

theorem wait_goes (args : List Octets) (m : Machine) : m.Goes (wait args m).1 :=
  ⟨le_foldl_max _ _, fun _ _ hw _ => hw⟩

end Builtins

section Programs

variable {capture : Expansion.Capture} {exec : Exec}

/-- A piece that is not taken away stays. -/
theorem mem_piecesOf_filter {m : Machine} {k : Nat} {w : Written} (hw : w ∈ m.piecesOf k)
    {p : Written → Bool} (hp : p w = true) :
    w ∈ ({ m with streams := m.streams.map fun s => (s.1, s.2.filter p) } : Machine).piecesOf k := by
  have hlookup : ∀ l : List (Nat × List Written),
      (l.map fun s => (s.1, s.2.filter p)).lookup k = (l.lookup k).map (List.filter p) := by
    intro l
    induction l with
    | nil => rfl
    | cons s l ih =>
      rw [List.map_cons, List.lookup_cons, List.lookup_cons]
      split
      · rfl
      · exact ih
  unfold Machine.piecesOf at hw ⊢
  rw [hlookup]
  cases hk : m.streams.lookup k with
  | none =>
    rw [hk] at hw
    cases hw
  | some ps =>
    rw [hk] at hw
    exact List.mem_filter.2 ⟨hw, hp⟩

theorem killJob_goes (number : Nat) (m : Machine) : m.Goes (killJob number m) := by
  refine ⟨Nat.le_refl _, fun k w hw htime => ?_⟩
  have hearly : (!(w.job == number && decide (m.clock < w.time))) = true := by
    simp [Nat.not_lt.2 htime]
  exact mem_piecesOf_filter (p := fun w => !(w.job == number && decide (m.clock < w.time))) hw hearly

theorem kill_goes (args : List Octets) (m : Machine) : m.Goes (kill args m).1 := by
  have hall (ks : List Nat) : m.Goes (ks.foldl (fun m k => killJob k m) m) :=
    Machine.foldl_goes id (fun (m : Machine) (k : Nat) => killJob_goes k m) ks m
  unfold kill
  simp only
  split
  · exact .of_same rfl rfl
  · split
    · exact (hall _).trans (.of_same rfl rfl)
    · exact (hall _).trans (.of_same rfl rfl)

theorem trap_goes (args : List Octets) (m : Machine) : m.Goes (trap args m) := by
  unfold trap
  split
  · split
    · exact .of_same rfl rfl
    · exact .refl m
  · exact .refl m

theorem call_goes (hexec : exec.Goes) (tested : Bool) (body : Command) (args : List Octets)
    (m : Machine) : m.Goes (call exec tested body args m).1 := by
  have hinside : m.Goes { m with arguments := args, locals := [] :: m.locals, loops := 0 } :=
    .of_same rfl rfl
  exact (hinside.trans (hexec tested body _)).trans
    ((Machine.restoreAll_goes _ _).trans (.of_same rfl rfl))

theorem innerShell_goes (hexec : exec.Goes) (name : Octets) (args : List Octets) (m : Machine) :
    m.Goes (innerShell exec name args m).1 := by
  have hstart (inner : Machine) (hclock : inner.clock = m.clock) (hstreams : inner.streams = m.streams)
      (text : Octets) : m.Goes (apart m (depart exec (Run.text exec text inner))).1 :=
    apart_goes (depart_goes hexec ((Machine.Goes.of_same hclock hstreams).trans (text_goes hexec text _)))
  unfold innerShell
  simp only
  split
  · split
    · apply hstart <;> rfl
    · exact .of_same rfl rfl
  · split
    · apply hstart <;> rfl
    · split
      · apply hstart <;> rfl
      · exact .of_same rfl rfl

/-- A program that is given as arguments to another one, if any is. -/
theorem inner_goes {start : Octets → List Octets → Machine → Option (Machine × Flow)} {m : Machine}
    (hstart : ∀ name args r, start name args m = some r → m.Goes r.1) (args : List Octets) :
    m.Goes (match args with
      | [] => (m.ended 0, Flow.on)
      | inner :: rest => (start inner rest m).getD (m.ended 127, Flow.on)).1 := by
  split
  · exact m.ended_goes 0
  · next inner rest =>
    cases hrun : start inner rest m with
    | none => exact m.ended_goes 127
    | some r => exact hstart _ _ r hrun

/-- A limit takes back only what would have been written after it. -/
theorem limit_goes {m m' : Machine} (h : m.Goes m') (wait status : Nat) : m.Goes { m' with
    clock := m.clock + wait
    status := status
    streams := m'.streams.map fun s => (s.1, s.2.filter fun w => w.time ≤ m.clock + wait) } := by
  refine ⟨Nat.le_add_right _ _, fun k w hw htime => ?_⟩
  have hintime : w.time ≤ m.clock + wait := Nat.le_trans htime (Nat.le_add_right _ _)
  exact mem_piecesOf_filter (h.kept k w hw htime) (decide_eq_true hintime)

/-- A program that runs for one group of words after the other. -/
theorem groups_goes {start : List Octets → Machine → Machine × Flow}
    (hstart : ∀ args m, Machine.Goes m (start args m).1) (command : List Octets)
    (gs : List (List Octets)) (r : Machine × Flow) : r.1.Goes (gs.foldl (fun r g =>
      match r with
      | (m, .on) => start (command ++ g) m
      | r => r) r).1 :=
  Machine.foldl_goes Prod.fst (fun _ _ => andThen_goes (.refl _) (hstart _)) gs r

theorem program_goes (hexec : exec.Goes) (n : Nat) {path : Octets} {args : List Octets} {m : Machine}
    {r : Machine × Flow} (h : program exec n path args m = some r) : m.Goes r.1 := by
  induction n generalizing path args m r with
  | zero => cases h
  | succ n ih =>
    unfold program at h
    extract_lets name start at h
    have hstart (args : List Octets) (m : Machine) : m.Goes (start args m).1 :=
      inner_goes (fun _ _ _ hrun => ih hrun) args
    clear_value start name
    split at h
    case h_1 | h_2 | h_23 =>
      cases h
      exact m.ended_goes _
    case h_3 | h_4 =>
      cases h
      exact m.emit_ended_goes _ _ _
    case h_5 =>
      cases h
      exact sleep_goes args m
    case h_6 =>
      cases h
      exact kill_goes args m
    case h_7 | h_8 => split at h <;> cases h <;> exact m.ended_goes _
    case h_9 | h_10 =>
      cases h
      exact innerShell_goes hexec path args m
    case h_11 =>
      cases h
      exact (giveAway_goes _ m).trans ((hstart _ _).trans (.of_same rfl rfl))
    case h_12 | h_13 | h_14 | h_15 =>
      cases h
      exact hstart _ m
    case h_20 | h_21 | h_22 =>
      cases h
      exact .of_same rfl rfl
    · -- A program with a limit.
      split at h
      · next limit rest _ =>
        have hrun := hstart rest m
        generalize start rest m = r' at *
        obtain ⟨m', flow⟩ := r'
        simp only at h
        split at h <;> cases h
        · exact limit_goes hrun _ 124
        · exact hrun
      · cases h
        exact m.ended_goes 125
    · -- A program for the words of the input.
      split at h
      cases h
      refine Machine.Goes.trans ?_ (groups_goes hstart _ _ _)
      exact .of_same rfl rfl
    · cases h
      refine Machine.Goes.trans ?_ (Machine.emit_ended_goes _ _ _ _)
      exact .of_same rfl rfl
    · split at h
      · cases h
        exact .refl m
      · cases h
        exact m.emit_ended_goes _ _ _
    · obtain ⟨o, -, rfl⟩ := Option.map_eq_some_iff.1 h
      refine Machine.Goes.trans ?_ (Machine.took_goes _ o)
      exact .of_same rfl rfl

theorem builtin_goes (hexec : exec.Goes) {name : String} {args : List Octets} {m : Machine}
    {r : Machine × Flow} (h : builtin? exec name args m = some r) : m.Goes r.1 := by
  unfold builtin? at h
  extract_lets well at h
  have hwell {m' : Machine} (hm : m.Goes m') (h : well m' = some r) : m.Goes r.1 := by
    cases h
    exact hm.trans (m'.ended_goes 0)
  clear_value well
  split at h
  case h_1 | h_2 | h_3 | h_4 | h_5 | h_6 | h_7 | h_8 | h_9 | h_10 => exact hwell (.refl m) h
  case h_11 =>
    refine hwell ?_ h
    split
    · exact m.emit_goes _ _
    · exact .refl m
  case h_12 | h_13 | h_14 | h_15 | h_16 =>
    cases h
    exact m.ended_goes _
  case h_17 => exact hwell (set_goes args m) h
  case h_18 =>
    split at h
    · cases h
      exact m.complain_ended_goes _ 2
    · refine hwell ?_ h
      exact .of_same rfl rfl
  case h_19 =>
    refine hwell ?_ h
    split <;> exact .of_same rfl rfl
  case h_20 => exact hwell (giveAway_goes _ m) h
  case h_21 => exact hwell (declare_goes _ m) h
  case h_22 =>
    split at h
    · cases h
      exact m.complain_ended_goes _ 2
    · exact hwell (keepLocal_goes args m) h
  case h_23 =>
    rw [← Option.some.inj h]
    exact (m.ended_goes 0).trans (text_goes hexec _ _)
  case h_24 =>
    split at h
    · next cs _ =>
      have hscript := text_goes hexec cs m
      generalize Run.text exec cs m = done at *
      obtain ⟨m', flow⟩ := done
      cases flow <;> cases h <;> exact hscript
    · cases h
      exact m.complain_ended_goes _ 2
  case h_25 => exact hwell (trap_goes args m) h
  case h_26 | h_34 =>
    cases h
    exact m.emit_ended_goes _ _ _
  case h_27 =>
    cases h
    exact wait_goes args m
  case h_28 =>
    cases h
    exact kill_goes args m
  case h_29 =>
    cases h
    simp only
    split
    · exact m.ended_goes 2
    · exact read_goes args m
  case h_30 =>
    split at h
    · exact hwell (m.set_goes _ _) h
    · cases h
      exact m.complain_ended_goes _ 2
  case h_31 | h_35 => exact hwell (m.emit_goes _ _) h
  case h_32 | h_33 =>
    split at h
    · cases h
      exact m.complain_ended_goes _ 2
    · split at h <;> cases h <;> exact m.ended_goes _
  case h_36 => cases h

theorem named_goes (hexec : exec.Goes) (tested : Bool) (n : Nat) (name : Octets) (args : List Octets)
    (m : Machine) : m.Goes (named exec tested n name args m).1 := by
  induction n generalizing name args m with
  | zero => exact .refl m
  | succ n ih =>
    have hgetD {o : Option (Machine × Flow)} (ho : ∀ r, o = some r → m.Goes r.1) {r : Machine × Flow}
        (hr : m.Goes r.1) : m.Goes (o.getD r).1 := by
      cases o with
      | none => exact hr
      | some r' => exact ho r' rfl
    have hunknown : m.Goes ((m.complain (name ++ ": not found".toList)).ended 127, Flow.on).1 :=
      m.complain_ended_goes _ 127
    unfold named
    simp only
    split
    · -- The shell's own `command`.
      split
      · split
        · exact m.emit_ended_goes _ _ _
        · split
          · exact m.emit_ended_goes _ _ _
          · exact m.ended_goes 127
      · next inner rest _ =>
        have hbare : m.Goes { m with functions := [] } := .of_same rfl rfl
        exact (hbare.trans (ih inner rest _)).trans (.of_same rfl rfl)
      · exact m.ended_goes 0
    · -- The shell's own `exec`.
      split
      · exact m.ended_goes 0
      · next inner rest =>
        split
        · next heq => exact (program_goes hexec _ heq).trans (.of_same rfl rfl)
        · next heq => exact program_goes hexec _ heq
        · exact m.complain_ended_goes _ 127
    · split
      · exact hgetD (fun r hr => builtin_goes hexec hr) hunknown
      · split
        · exact call_goes hexec tested _ args m
        · split
          · next heq => exact builtin_goes hexec heq
          · exact hgetD (fun r hr => program_goes hexec _ hr) hunknown

end Programs

section Commands

variable {capture : Expansion.Capture} {exec : Exec}

theorem simple_goes (hexec : exec.Goes) (tested : Bool) (ss : List (Octets × Word)) (ws : List Word)
    (rs : List Redirect) (m : Machine) : m.Goes (simple exec tested ss ws rs m).1 := by
  have hcapture := capture_goes hexec
  have hzero : m.Goes { m with captured := 0 } := .of_same rfl rfl
  have hfields := hzero.trans (Expansion.fields_goes hcapture ws { m with captured := 0 })
  unfold simple
  extract_lets capture failed
  have hfailed (e : Octets) (m : Machine) : m.Goes (failed e m).1 := m.complain_ended_goes e 2
  clear_value failed
  generalize Expansion.fields capture ws { m with captured := 0 } = r at *
  obtain ⟨e | fs, m'⟩ := r
  · exact hfields.trans (hfailed e m')
  · refine hfields.trans ?_
    cases fs with
    | nil =>
      have hassign := assign_goes hcapture ss m'
      simp only
      generalize assign capture ss m' = r at *
      obtain ⟨e | u, m''⟩ := r
      · exact hassign.trans (hfailed e m'')
      · have hredirected := redirected_goes hcapture rs (f := fun m => (m, .on)) (fun m => .refl m)
          (m''.ended m''.captured)
        exact (hassign.trans (m''.ended_goes _)).trans hredirected
    | cons name args =>
      simp -zeta only
      extract_lets own old act
      have hact (m : Machine) : m.Goes (act m).1 := by
        have hassign := assign_goes hcapture ss m
        simp only [act]
        generalize assign _ ss m = r at *
        obtain ⟨e | u, m''⟩ := r
        · exact hassign.trans (hfailed e m'')
        · have hnamed (exported : List Octets) :
              m''.Goes (named exec tested 8 name args { m'' with exported }).1 := by
            refine Machine.Goes.trans ?_ (named_goes hexec tested 8 name args _)
            exact .of_same rfl rfl
          refine hassign.trans ?_
          have hnow := hnamed (ss.map Prod.fst ++ m''.exported)
          simp only
          generalize named exec tested 8 name args _ = r at *
          obtain ⟨m', flow⟩ := r
          simp only
          split
          · exact hnow
          · exact hnow.trans ((m'.restoreAll_goes old).trans (.of_same rfl rfl))
      clear_value act
      split
      · have hall := redirectAll_goes hcapture rs m'
        generalize redirectAll _ rs m' = r at *
        obtain ⟨_ | u, m''⟩ := r
        · exact hall.trans (m''.ended_goes 2)
        · exact hall.trans (m''.ended_goes 0)
      · have hdone := redirected_goes hcapture rs hact m'
        generalize redirected _ rs act m' = r at *
        obtain ⟨m'', flow⟩ := r
        cases flow with
        | on =>
          simp only
          split <;> exact hdone
        | leave | back | breaks _ | again _ | spent => exact hdone

/-- The patterns of one arm, tried from the left until one fits. -/
theorem patterns_goes (hcapture : Expansion.Capture.Goes capture) (text : Octets) (ps : List Word)
    (m : Machine) : m.Goes (ps.foldl (fun (s : Bool × Machine) p =>
      if s.1 then s
      else
        match Expansion.items capture Expansion.depth p s.2 with
        | (.ok is, m) => (Glob.fits (Glob.ofMarked (Expansion.markedOf is)) text, m)
        | (.error _, m) => (false, m)) (false, m)).2 := by
  refine Machine.foldl_goes Prod.snd (fun s p => ?_) ps (false, m)
  split
  · exact .refl _
  · have hitems := Expansion.items_goes hcapture Expansion.depth p s.2
    generalize Expansion.items capture Expansion.depth p s.2 = r at *
    obtain ⟨e | is, m'⟩ := r <;> exact hitems

theorem chosen_goes (hcapture : Expansion.Capture.Goes capture) (text : Octets)
    (arms : List (List Word × Command)) (m : Machine) : m.Goes (chosen capture text arms m).2 := by
  induction arms generalizing m with
  | nil => exact .refl m
  | cons arm arms ih =>
    obtain ⟨ps, c⟩ := arm
    have hpatterns := patterns_goes hcapture text ps m
    unfold chosen
    generalize List.foldl _ (false, m) ps = s at *
    obtain ⟨hit, m'⟩ := s
    simp only
    split
    · exact hpatterns
    · exact hpatterns.trans (ih m')

/-- **One command.** -/
theorem step_goes (hexec : exec.Goes) : (step exec).Goes := by
  intro tested c m
  have hcapture := capture_goes hexec
  have hboth (tested : Bool) (a : Command) {f : Machine → Machine × Flow}
      (hf : ∀ m, Machine.Goes m (f m).1) : m.Goes (match exec tested a m with
        | (m, .on) => f m
        | r => r).1 := andThen_goes (hexec tested a m) hf
  unfold step
  split
  · exact .refl m
  split
  · exact .refl m
  cases c with
  | skip => exact m.ended_goes 0
  | simple ss ws rs => exact checked_goes tested (simple_goes hexec tested ss ws rs m)
  | redirected c rs => exact redirected_goes hcapture rs (hexec tested c) m
  | subshell c => exact checked_goes tested (subshell_goes hexec tested c m)
  | sequence a b => exact hboth tested a (hexec tested b)
  | also a b =>
    refine hboth true a fun m => ?_
    split
    · exact hexec tested b m
    · exact .refl m
  | otherwise a b =>
    refine hboth true a fun m => ?_
    split
    · exact .refl m
    · exact hexec tested b m
  | negated c => exact hboth true c fun m => m.ended_goes _
  | pipeline c cs =>
    exact checked_goes tested ((stages_goes hexec tested (c :: cs) m).trans (.of_same rfl rfl))
  | background c => exact background_goes hexec c m
  | choice test yes no =>
    refine hboth true test fun m => ?_
    split
    · exact hexec tested yes m
    · exact hexec tested no m
  | loop whileTrue test body =>
    exact looped_goes m fun m => repeated_goes (hexec true test) (hexec tested body) whileTrue _ 0 m
  | each name words body =>
    cases words with
    | none =>
      exact (m.ended_goes 0).trans (looped_goes _ fun m => forEach_goes name (hexec tested body) _ m)
    | some ws =>
      have hfields := Expansion.fields_goes hcapture ws m
      simp only
      generalize Expansion.fields (capture exec) ws m = r at *
      obtain ⟨e | vs, m'⟩ := r
      · exact hfields.trans (m'.complain_ended_goes e 2)
      · exact hfields.trans ((m'.ended_goes 0).trans
          (looped_goes _ fun m => forEach_goes name (hexec tested body) vs m))
  | select word arms =>
    have htext := Expansion.text_goes hcapture word m
    simp only
    generalize Expansion.text (capture exec) word m = r at *
    obtain ⟨e | t, m'⟩ := r
    · exact htext.trans (m'.complain_ended_goes e 2)
    · have hchosen := chosen_goes hcapture t arms m'
      simp only
      generalize chosen (capture exec) t arms m' = r at *
      obtain ⟨_ | c, m''⟩ := r
      · exact htext.trans (hchosen.trans (m''.ended_goes 0))
      · exact htext.trans (hchosen.trans (hexec tested c m''))
  | define name body => exact .of_same rfl rfl

/-- **Every command to every depth.** -/
theorem run_goes (n : Nat) : (run n).Goes := by
  induction n with
  | zero => exact fun _ _ m => .of_same rfl rfl
  | succ n ih => exact step_goes ih

end Commands

section Whole

variable {m : Machine}

theorem clock_le_held (m : Machine) : m.clock ≤ m.held := le_foldl_max _ _

/-- Nothing is shown of what comes after the time was spent. -/
theorem shown_eq_none {r : Machine × Flow} (hgoes : m.Goes r.1) (hlate : timeLimit ≤ m.clock) :
    shown r = none :=
  if_pos (Or.inr (Nat.le_trans hlate (Nat.le_trans hgoes.clock (clock_le_held r.1))))

/-- **A script that has spent its time on a command shows nothing**, whatever the command after it does. -/
theorem shown_sequence (n : Nat) (tested : Bool) (a b : Command) (hruns : m.onlyReads = false)
    (hlate : timeLimit ≤ (run n tested a m).1.clock) : shown (run (n + 1) tested (.sequence a b) m) = none := by
  have hrun : (run n tested a m).1.Goes (match run n tested a m with
      | (m, .on) => run n tested b m
      | r => r).1 := andThen_goes (.refl _) (run_goes n tested b)
  simp only [run, step, hruns]
  split
  · next hspent => exact shown_eq_none (.refl m) hspent
  · exact shown_eq_none hrun hlate

/-- **Time goes on in every program of the host**, and what it has written up to some moment stays. -/
theorem start_goes {name : Octets} {args : List Octets} {r : Machine × Flow}
    (h : start name args = some r) : (Machine.begun [] []).Goes r.1 :=
  program_goes (run_goes depth) programDepth h

end Whole

end Run

end Shell
end VoiceRelay
