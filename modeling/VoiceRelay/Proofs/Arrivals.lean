import VoiceRelay.Query.Link
import VoiceRelay.Proofs.Lines

/-!
# What comes next on a connection

A read has a deadline, and what it gives depends on it. What comes next on a connection does not: the next
whole line, the end of the stream or a trouble comes at a moment of its own, however many reads give up
before it. The only thing on this side that it depends on is when lines are written, as the other side may
wait for them.

**Design.** `arrival` walks a script and knows octets, times and nothing of deadlines or of what a reader
does next. It is told when each line is written. As long as no read fails the octets that a reader holds say
all about it: `Reader.Live` holds of a fresh reader, and every read that does not fail keeps it.

**Results.**

- `arrival_weight`: something is used up by each line.
- `listen_meets`, `hear_meets`: a read gives what comes next, or gives up before it comes and leaves it to
  come at the same moment.
- `hear_live`: a read that does not fail leaves a live reader.
-/

namespace VoiceRelay

section Defs

/-- What is still to come on a connection: the octets received and not yet handed out, and what the other
side will do. -/
structure Outlook where
  limit : Nat
  buffer : List UInt8
  script : List Step
  shut : Bool
  deriving DecidableEq, Repr

/-- What comes next on a connection, when, and what is still to come after it. -/
structure Arrival where
  heard : Heard
  time : Nat
  next : Outlook
  deriving DecidableEq, Repr

/-- What comes next out of a buffer and a script, if `written n` is the time at which `n` lines have been
written to the other side. -/
def arrival (written : Nat → Option Nat) (limit now : Nat) (buffer : List UInt8) (shut : Bool)
    (script : List Step) : Option Arrival :=
  match Line.cut buffer with
  | some (line, rest) => some ⟨.line (Line.textOf line), now, ⟨limit, rest, script, shut⟩⟩
  | none =>
    if limit < buffer.length then
      some ⟨.failed (.lineTooLong buffer.length limit), now, ⟨limit, buffer, script, shut⟩⟩
    else
      match script with
      | [] => none
      | .data octets :: rest => arrival written limit now (buffer ++ octets) shut rest
      | .silence length :: rest => arrival written limit (now + length) buffer shut rest
      | .silentUntil time :: rest => arrival written limit (max now time) buffer shut rest
      | .awaitLines count :: rest =>
        (written count).bind fun time => arrival written limit (max now time) buffer shut rest
      | .trouble cause :: rest => some ⟨.failed cause, now, ⟨limit, buffer, rest, shut⟩⟩
      | .finish :: rest =>
        if buffer.isEmpty then some ⟨.ended, now, ⟨limit, [], .finish :: rest, shut⟩⟩
        else some ⟨.line (Line.textOf buffer), now, ⟨limit, [], .finish :: rest, shut⟩⟩
      | .shutInbox :: rest => arrival written limit now buffer true rest

namespace Outlook

/-- What comes next. -/
def arrival (o : Outlook) (written : Nat → Option Nat) (now : Nat) : Option Arrival :=
  VoiceRelay.arrival written o.limit now o.buffer o.shut o.script

/-- How much can still come. -/
def weight (o : Outlook) : Nat := o.buffer.length + scriptWeight o.script

end Outlook

/-- What is still to come on a connection. -/
def Link.outlook (l : Link) : Outlook := ⟨l.reader.limit, l.reader.buffer, l.script, l.inboxShut⟩

/-- What is still to come after a read. -/
def Listened.outlook (out : Listened) : Outlook :=
  ⟨out.reader.limit, out.reader.buffer, out.script, out.inboxShut⟩

/-- When lines are written, for a read that begins at some time after some lines: these have been written,
and no other line is written before the read gives up. -/
structure Foresees (written : Nat → Option Nat) (lines : Nat) (deadline : Deadline) (now : Nat) : Prop where
  past : ∀ n ≤ lines, ∃ t ≤ now, written n = some t
  later : ∀ n > lines, ∀ t, written n = some t → ∃ e ∈ deadline, e ≤ t

/-- A reader that has not failed, and that holds nothing before the first octets and after the last line. -/
structure Reader.Live (r : Reader) (script : List Step) : Prop where
  sound : r.phase ≠ .failed
  receiving : r.phase = .receiving → r.buffer = []
  ended : r.phase = .draining ∨ r.phase = .past → r.buffer = [] ∧ ∃ rest, script = .finish :: rest

/-- A reader that has to read before it can hand anything out. -/
structure Reader.Asks (r : Reader) : Prop where
  cut : Line.cut r.buffer = none
  short : r.buffer.length ≤ r.limit
  phase : r.phase = .receiving ∧ r.buffer = [] ∨ r.phase = .framing

/-- What a read makes of what comes next: it gives that, if it comes in time, and otherwise it gives nothing
at the deadline and leaves it to come. -/
inductive Meets (written : Nat → Option Nat) (lines : Nat) (deadline : Deadline) :
    Option Arrival → Listened → Prop
  | arrives {a : Arrival} {out : Listened} : out.heard = a.heard → out.now = a.time →
      out.outlook = a.next → deadline.before a.time = false →
      Meets written lines deadline (some a) out
  | waits {next : Option Arrival} {out : Listened} : out.heard = .nothing →
      (∀ e ∈ deadline, out.now = e) → out.outlook.arrival written out.now = next →
      (∀ a ∈ next, deadline.before a.time = true ∨ ∃ n > lines, ∃ t ≤ a.time, written n = some t) →
      Meets written lines deadline next out

/-- What a connection logs of a read. -/
def Listened.noted (out : Listened) : List Entry :=
  match out.heard with
  | .line text => [.heard out.now text]
  | _ => []

/-- What a read on a connection comes to: what is there is handed out, or it listens. -/
def Link.listened (l : Link) (deadline : Deadline) (now : Nat) : Listened :=
  match l.reader.pop with
  | some (heard, r) => ⟨heard, now, r, l.script, l.inboxShut⟩
  | none => listen l.lines deadline l.reader l.inboxShut now l.script

/-- A connection after a read. -/
def Link.after (l : Link) (out : Listened) : Link :=
  { l with
    reader := out.reader
    script := out.script
    inboxShut := out.inboxShut
    log := out.noted ++ l.log }

/-- A connection on which no read has failed. -/
def Link.Live (l : Link) : Prop := l.reader.Live l.script

end Defs

section Arrivals

variable {written : Nat → Option Nat} {limit now : Nat} {buffer : List UInt8} {shut : Bool}
  {script : List Step} {a : Arrival}

theorem arrival_of_cut (written : Nat → Option Nat) (limit now : Nat) (shut : Bool) (script : List Step)
    {line rest : List UInt8} (h : Line.cut buffer = some (line, rest)) :
    arrival written limit now buffer shut script =
      some ⟨.line (Line.textOf line), now, ⟨limit, rest, script, shut⟩⟩ := by
  rw [arrival.eq_def, h]

theorem arrival_of_long (written : Nat → Option Nat) (now : Nat) (shut : Bool) (script : List Step)
    (hcut : Line.cut buffer = none) (hlong : limit < buffer.length) :
    arrival written limit now buffer shut script =
      some ⟨.failed (.lineTooLong buffer.length limit), now, ⟨limit, buffer, script, shut⟩⟩ := by
  rw [arrival.eq_def, hcut]
  exact if_pos hlong

/-- A buffer that holds no whole line and is not too long waits for the first step of the script. -/
theorem arrival_of_short (written : Nat → Option Nat) (now : Nat) (shut : Bool) (script : List Step)
    (hcut : Line.cut buffer = none) (hshort : buffer.length ≤ limit) :
    arrival written limit now buffer shut script =
      match script with
      | [] => none
      | .data octets :: rest => arrival written limit now (buffer ++ octets) shut rest
      | .silence length :: rest => arrival written limit (now + length) buffer shut rest
      | .silentUntil time :: rest => arrival written limit (max now time) buffer shut rest
      | .awaitLines count :: rest =>
        (written count).bind fun time => arrival written limit (max now time) buffer shut rest
      | .trouble cause :: rest => some ⟨.failed cause, now, ⟨limit, buffer, rest, shut⟩⟩
      | .finish :: rest =>
        if buffer.isEmpty then some ⟨.ended, now, ⟨limit, [], .finish :: rest, shut⟩⟩
        else some ⟨.line (Line.textOf buffer), now, ⟨limit, [], .finish :: rest, shut⟩⟩
      | .shutInbox :: rest => arrival written limit now buffer true rest := by
  rw [arrival.eq_def, hcut]
  exact if_neg (Nat.not_lt.2 hshort)

/-- After the end of the stream and the last line, the end comes again. -/
theorem arrival_finished (written : Nat → Option Nat) (limit now : Nat) (shut : Bool) (rest : List Step) :
    arrival written limit now [] shut (.finish :: rest) =
      some ⟨.ended, now, ⟨limit, [], .finish :: rest, shut⟩⟩ := by
  rw [arrival_of_short _ _ _ _ Line.cut_nil (Nat.zero_le limit)]
  rfl

/-- A buffer holds a whole line, is too long, or asks for more. -/
theorem buffer_cases (limit : Nat) (buffer : List UInt8) :
    (∃ line rest, Line.cut buffer = some (line, rest)) ∨
      Line.cut buffer = none ∧ limit < buffer.length ∨
      Line.cut buffer = none ∧ buffer.length ≤ limit := by
  rcases Line.cut buffer with _ | ⟨line, rest⟩
  · exact Or.inr ((Nat.lt_or_ge limit buffer.length).imp (⟨rfl, ·⟩) (⟨rfl, ·⟩))
  · exact Or.inl ⟨line, rest, rfl⟩

/-- Nothing comes before the time from which it is waited for. -/
theorem arrival_later (h : arrival written limit now buffer shut script = some a) : now ≤ a.time := by
  fun_induction arrival written limit now buffer shut script with
  | case1 | case2 | case8 | case9 | case10 =>
    cases h
    exact Nat.le_refl _
  | case3 => cases h
  | case4 _ _ _ _ _ _ _ ih | case11 _ _ _ _ _ _ ih => exact ih h
  | case5 now _ _ _ _ length _ ih => exact Nat.le_trans (Nat.le_add_right now length) (ih h)
  | case6 now _ _ _ _ time _ ih => exact Nat.le_trans (Nat.le_max_left now time) (ih h)
  | case7 now _ _ _ _ count _ ih =>
    obtain ⟨time, -, h⟩ := Option.bind_eq_some_iff.1 h
    exact Nat.le_trans (Nat.le_max_left now time) (ih time h)

/-- What comes next is something. -/
theorem arrival_heard (h : arrival written limit now buffer shut script = some a) : a.heard ≠ .nothing := by
  fun_induction arrival written limit now buffer shut script with
  | case1 | case2 | case8 | case9 | case10 =>
    cases h
    exact nofun
  | case3 => cases h
  | case4 _ _ _ _ _ _ _ ih | case5 _ _ _ _ _ _ _ ih | case6 _ _ _ _ _ _ _ ih | case11 _ _ _ _ _ _ ih =>
    exact ih h
  | case7 _ _ _ _ _ _ _ ih =>
    obtain ⟨time, -, h⟩ := Option.bind_eq_some_iff.1 h
    exact ih time h

/-- **Something is used up by each line.** -/
theorem arrival_weight (h : arrival written limit now buffer shut script = some a) :
    a.next.weight ≤ buffer.length + scriptWeight script ∧
      (∀ text, a.heard = .line text → a.next.weight < buffer.length + scriptWeight script) := by
  fun_induction arrival written limit now buffer shut script with
  | case1 _ _ _ _ _ _ hcut =>
    cases h
    have := Line.cut_length hcut
    simp only [Outlook.weight]
    exact ⟨by omega, fun _ _ => by omega⟩
  | case2 =>
    cases h
    exact ⟨Nat.le_refl _, nofun⟩
  | case3 => cases h
  | case4 _ buffer _ _ _ octets _ ih =>
    have := ih h
    rw [List.length_append] at this
    simp only [scriptWeight_cons, Step.weight]
    exact ⟨by omega, fun text ht => by have := this.2 text ht; omega⟩
  | case5 _ _ _ _ _ _ _ ih | case6 _ _ _ _ _ _ _ ih | case11 _ _ _ _ _ _ ih =>
    have := ih h
    simp only [scriptWeight_cons, Step.weight]
    exact ⟨by omega, fun text ht => by have := this.2 text ht; omega⟩
  | case7 now _ _ _ _ count _ ih =>
    obtain ⟨time, -, h⟩ := Option.bind_eq_some_iff.1 h
    have := ih time h
    simp only [scriptWeight_cons, Step.weight]
    exact ⟨by omega, fun text ht => by have := this.2 text ht; omega⟩
  | case8 =>
    cases h
    simp [Outlook.weight]
  | case9 =>
    cases h
    simp [Outlook.weight]
  | case10 _ _ _ _ _ _ hne =>
    cases h
    have := List.length_pos_of_ne_nil (fun hnil => hne (List.isEmpty_iff.2 hnil))
    simp only [Outlook.weight, List.length_nil]
    exact ⟨by omega, fun _ _ => by omega⟩

end Arrivals

section Reading

variable {written : Nat → Option Nat} {lines now : Nat} {deadline : Deadline} {r r' : Reader} {shut : Bool}
  {script : List Step} {heard : Heard}

theorem Foresees.mono (h : Foresees written lines deadline now) {now' : Nat} (hle : now ≤ now') :
    Foresees written lines deadline now' := by
  refine ⟨fun n hn => ?_, h.later⟩
  obtain ⟨t, ht, hwritten⟩ := h.past n hn
  exact ⟨t, Nat.le_trans ht hle, hwritten⟩

theorem Reader.Asks.live (h : r.Asks) (script : List Step) : r.Live script := by
  rcases h.phase with ⟨hphase, hnil⟩ | hphase
  · exact ⟨by simp [hphase], fun _ => hnil, by simp [hphase]⟩
  · exact ⟨by simp [hphase], by simp [hphase], by simp [hphase]⟩

/-- A reader in the middle of its lines asks for more or hands out what comes next. -/
theorem pop_framing (hphase : r.phase = .framing) :
    (r.pop = none ∧ r.Asks) ∨ ∃ heard r', r.pop = some (heard, r') ∧
      (∀ written now shut script, arrival written r.limit now r.buffer shut script =
        some ⟨heard, now, ⟨r'.limit, r'.buffer, script, shut⟩⟩) ∧
      ((∀ t, heard ≠ .failed t) → ∀ script, r'.Live script) := by
  simp only [Reader.pop, hphase, Line.decode, Line.take_false]
  rcases buffer_cases r.limit r.buffer with ⟨line, rest, hcut⟩ | ⟨hcut, hlong⟩ | ⟨hcut, hshort⟩
  · refine Or.inr ⟨.line (Line.textOf line), { r with buffer := rest }, ?_, ?_, fun _ script => ?_⟩
    · rw [hcut]
      simp only [hphase]
      rfl
    · exact fun _ _ _ _ => arrival_of_cut _ _ _ _ _ hcut
    · exact ⟨by simp [hphase], by simp [hphase], by simp [hphase]⟩
  · refine Or.inr ⟨_, { r with phase := .failed }, ?_, fun _ _ _ _ => arrival_of_long _ _ _ _ hcut hlong,
      fun hf => absurd rfl (hf _)⟩
    rw [hcut]
    simp only [if_pos hlong]
  · refine Or.inl ⟨?_, hcut, hshort, Or.inr hphase⟩
    rw [hcut]
    simp only [if_neg (Nat.not_lt.2 hshort)]

/-- At the end of the stream the reader hands out what is left as a line, and then the end. -/
theorem pop_end (h : r.Asks) (script : List Step) :
    ∃ heard r', { r with phase := .draining : Reader }.pop = some (heard, r') ∧
      (∀ written now shut, arrival written r.limit now r.buffer shut (.finish :: script) =
        some ⟨heard, now, ⟨r'.limit, r'.buffer, .finish :: script, shut⟩⟩) ∧
      r'.Live (.finish :: script) := by
  by_cases hnil : r.buffer = []
  · refine ⟨.ended, { r with phase := .past }, ?_, fun written now shut => ?_, ?_⟩
    · simp only [Reader.pop, hnil, Line.decode, Line.take_nil, List.length_nil, Nat.not_lt_zero, if_false]
    · rw [hnil]
      exact arrival_finished written r.limit now shut script
    · exact ⟨by simp, by simp, fun _ => ⟨hnil, script, rfl⟩⟩
  · refine ⟨.line (Line.textOf r.buffer), { r with buffer := [], phase := .draining }, ?_,
      fun written now shut => ?_, ?_⟩
    · simp only [Reader.pop, Line.decode, Line.take_of_cut_none hnil h.cut]
      rfl
    · rw [arrival_of_short _ _ _ _ h.cut h.short]
      exact if_neg fun he => hnil (List.isEmpty_iff.1 he)
    · exact ⟨by simp, by simp, fun _ => ⟨rfl, script, rfl⟩⟩

/-- A read that gives up during a silence leaves what comes after it. -/
theorem Meets.of_silence (h : r.Asks) (hopen : deadline.before now = false) {time : Nat}
    (hover : deadline.before time = true) :
    Meets written lines deadline (arrival written r.limit (max now time) r.buffer shut script)
      ⟨.nothing, deadline.getD now, r, .silentUntil time :: script, shut⟩ := by
  cases deadline with
  | none => cases hover
  | some e =>
    simp only [Deadline.before, decide_eq_true_eq, decide_eq_false_iff_not, Nat.not_lt] at hover hopen
    refine .waits rfl (fun _ he => Option.some.inj he) ?_ fun a ha => Or.inl ?_
    · have hstep := arrival_of_short written e shut (.silentUntil time :: script) h.cut h.short
      simp only [Nat.max_eq_right (Nat.le_of_lt hover)] at hstep
      rw [Nat.max_eq_right (Nat.le_trans hopen (Nat.le_of_lt hover))]
      exact hstep
    · have hlater := arrival_later ha
      simp only [Deadline.before, decide_eq_true_eq]
      omega

/-- A read that gives up while the other side waits for a line leaves what comes after it. -/
theorem Meets.of_await (h : r.Asks) (hopen : deadline.before now = false)
    (hw : Foresees written lines deadline now) {count : Nat} (hcount : lines < count) :
    Meets written lines deadline
      ((written count).bind fun time => arrival written r.limit (max now time) r.buffer shut script)
      ⟨.nothing, deadline.getD now, r, .awaitLines count :: script, shut⟩ := by
  refine .waits rfl ?_ ?_ fun a ha => Or.inr ?_
  · rintro e rfl
    rfl
  · have hstep := arrival_of_short written (deadline.getD now) shut (.awaitLines count :: script) h.cut
      h.short
    refine hstep.trans (Option.bind_congr fun t hwritten => ?_)
    -- The line is written no earlier than at the deadline.
    obtain ⟨e, rfl, he⟩ := hw.later count hcount t hwritten
    simp only [Deadline.before, decide_eq_false_iff_not, Nat.not_lt] at hopen
    rw [Option.getD_some, Nat.max_eq_right he, Nat.max_eq_right (Nat.le_trans hopen he)]
  · obtain ⟨t, hwritten, ha⟩ := Option.bind_eq_some_iff.1 ha
    exact ⟨count, hcount, t, Nat.le_trans (Nat.le_max_right now t) (arrival_later ha), hwritten⟩

/-- **A read gives what comes next, or gives up before it comes.** -/
theorem listen_meets (shut : Bool) (h : r.Asks) (hopen : deadline.before now = false)
    (hw : Foresees written lines deadline now) :
    Meets written lines deadline (arrival written r.limit now r.buffer shut script)
      (listen lines deadline r shut now script) := by
  induction script generalizing r now shut with
  | nil =>
    rw [arrival_of_short _ _ _ _ h.cut h.short]
    refine .waits rfl ?_ (arrival_of_short _ _ _ _ h.cut h.short) nofun
    rintro e rfl
    rfl
  | cons s script ih =>
    have hstep := arrival_of_short written now shut (s :: script) h.cut h.short
    cases s with
    | data octets =>
      rw [hstep]
      simp only [listen]
      by_cases he : octets.isEmpty = true
      · obtain rfl := List.isEmpty_iff.1 he
        rw [if_pos he, List.append_nil]
        exact ih shut h hopen hw
      · rw [if_neg he]
        rcases pop_framing (r := r.feed octets) rfl with ⟨hpop, hasks⟩ | ⟨heard, r', hpop, harrival, -⟩
        · rw [hpop]
          exact ih shut hasks hopen hw
        · rw [hpop]
          exact harrival written now shut script ▸ .arrives rfl rfl rfl hopen
    | silence length =>
      rw [hstep]
      simp only [listen]
      split
      · next hover =>
        have hwaits : Meets written lines deadline
            (arrival written r.limit (max now (now + length)) r.buffer shut script) _ :=
          .of_silence h hopen hover
        rwa [Nat.max_eq_right (Nat.le_add_right now length)] at hwaits
      · next hrun =>
        exact ih shut h (by simpa using hrun) (hw.mono (Nat.le_add_right now length))
    | silentUntil time =>
      rw [hstep]
      simp only [listen]
      split
      · next hover => exact .of_silence h hopen hover
      · next hrun =>
        have hrun : deadline.before (max now time) = false := by
          rcases Nat.le_total now time with hle | hle
          · rw [Nat.max_eq_right hle]
            simpa using hrun
          · rwa [Nat.max_eq_left hle]
        exact ih shut h hrun (hw.mono (Nat.le_max_left now time))
    | awaitLines count =>
      rw [hstep]
      simp only [listen]
      split
      · next hcount =>
        obtain ⟨t, ht, hwritten⟩ := hw.past count hcount
        rw [hwritten, Option.bind_some, Nat.max_eq_left ht]
        exact ih shut h hopen hw
      · next hcount => exact .of_await h hopen hw (Nat.not_le.1 hcount)
    | trouble cause =>
      rw [hstep]
      exact .arrives rfl rfl rfl hopen
    | finish =>
      obtain ⟨heard, r', hpop, harrival, -⟩ := pop_end h script
      rw [harrival]
      simp only [listen, hpop]
      exact .arrives rfl rfl rfl hopen
    | shutInbox =>
      rw [hstep]
      exact ih true h hopen hw

/-- At the end of the stream there is always something to hand out. -/
theorem pop_draining (r : Reader) : { r with phase := .draining : Reader }.pop ≠ none := by
  unfold Reader.pop
  simp only
  split <;> simp

/-- **A read that does not fail leaves a live reader.** -/
theorem listen_live (lines : Nat) (deadline : Deadline) (shut : Bool) (now : Nat) (h : r.Asks)
    (hf : ∀ t, (listen lines deadline r shut now script).heard ≠ .failed t) :
    (listen lines deadline r shut now script).reader.Live
      (listen lines deadline r shut now script).script := by
  fun_induction listen lines deadline r shut now script with
  | case1 | case5 | case7 | case10 => exact h.live _
  | case2 _ _ _ _ _ _ ih | case6 _ _ _ _ _ _ _ ih | case8 _ _ _ _ _ _ ih | case9 _ _ _ _ _ _ ih
  | case14 _ _ _ _ ih => exact ih h hf
  | case3 r _ _ octets rest _ _ heard r' hpop =>
    rcases pop_framing (r := r.feed octets) rfl with ⟨hnone, -⟩ | ⟨heard, r'', hsome, -, hlive⟩
    · cases hpop.symm.trans hnone
    · cases hpop.symm.trans hsome
      exact hlive hf rest
  | case4 r _ _ octets rest _ _ hpop ih =>
    rcases pop_framing (r := r.feed octets) rfl with ⟨-, hasks⟩ | ⟨heard, r'', hsome, -, -⟩
    · exact ih hasks hf
    · cases hpop.symm.trans hsome
  | case11 _ _ _ cause => exact absurd rfl (hf cause)
  | case12 r _ _ rest heard r' hpop =>
    obtain ⟨heard, r'', hsome, -, hlive⟩ := pop_end h rest
    cases hpop.symm.trans hsome
    exact hlive
  | case13 r _ _ rest hpop => exact absurd hpop (pop_draining r)

/-- A live reader asks for more or hands out what comes next. -/
theorem pop_live (h : r.Live script) :
    (r.pop = none ∧ r.Asks) ∨ ∃ heard r', r.pop = some (heard, r') ∧
      (∀ written now shut, arrival written r.limit now r.buffer shut script =
        some ⟨heard, now, ⟨r'.limit, r'.buffer, script, shut⟩⟩) ∧
      ((∀ t, heard ≠ .failed t) → r'.Live script) := by
  cases hphase : r.phase with
  | receiving =>
    have hnil := h.receiving hphase
    exact Or.inl ⟨by simp only [Reader.pop, hphase], by rw [hnil]; rfl, by simp [hnil],
      Or.inl ⟨hphase, hnil⟩⟩
  | framing =>
    refine (pop_framing hphase).imp_right ?_
    rintro ⟨heard, r', hpop, harrival, hlive⟩
    exact ⟨heard, r', hpop, fun written now shut => harrival written now shut script,
      fun hf => hlive hf script⟩
  | draining =>
    obtain ⟨hnil, rest, rfl⟩ := h.ended (Or.inl hphase)
    refine Or.inr ⟨.ended, { r with phase := .past }, ?_, fun written now shut => ?_, fun _ => ?_⟩
    · simp only [Reader.pop, hphase, hnil, Line.decode, Line.take_nil, List.length_nil, Nat.not_lt_zero,
        if_false]
    · rw [hnil]
      exact arrival_finished written r.limit now shut rest
    · exact ⟨by simp, by simp, fun _ => ⟨hnil, rest, rfl⟩⟩
  | past =>
    obtain ⟨hnil, rest, rfl⟩ := h.ended (Or.inr hphase)
    refine Or.inr ⟨.ended, r, ?_, fun written now shut => ?_, fun _ => h⟩
    · simp only [Reader.pop, hphase]
    · rw [hnil]
      exact arrival_finished written r.limit now shut rest
  | failed => exact absurd hphase h.sound

end Reading

namespace Link

variable {l : Link} {written : Nat → Option Nat} {deadline : Deadline} {now : Nat}

theorem hear_eq (l : Link) (deadline : Deadline) (now : Nat) :
    l.hear deadline now =
      ((l.listened deadline now).heard, (l.listened deadline now).now, l.after (l.listened deadline now)) := by
  generalize hout : l.listened deadline now = out
  have hhear : l.hear deadline now = match (l.listened deadline now).heard with
      | .line text => (.line text, (l.listened deadline now).now, Link.note
          { l with
            reader := (l.listened deadline now).reader
            script := (l.listened deadline now).script
            inboxShut := (l.listened deadline now).inboxShut }
          (.heard (l.listened deadline now).now text))
      | heard => (heard, (l.listened deadline now).now,
          { l with
            reader := (l.listened deadline now).reader
            script := (l.listened deadline now).script
            inboxShut := (l.listened deadline now).inboxShut }) := rfl
  rw [hhear, hout]
  cases hheard : out.heard <;> simp [after, Listened.noted, note, hheard]

/-- **A read on a connection gives what comes next, or gives up before it comes.** -/
theorem hear_meets (h : l.Live) (hopen : deadline.before now = false)
    (hw : Foresees written l.lines deadline now) :
    Meets written l.lines deadline (l.outlook.arrival written now) (l.listened deadline now) := by
  unfold listened
  rcases pop_live h with ⟨hpop, hasks⟩ | ⟨heard, r, hpop, harrival, -⟩
  · rw [hpop]
    exact listen_meets l.inboxShut hasks hopen hw
  · rw [hpop, Outlook.arrival]
    exact harrival written now l.inboxShut ▸ .arrives rfl rfl rfl hopen

theorem hear_live (deadline : Deadline) (now : Nat) (h : l.Live) (hf : ∀ t, (l.listened deadline now).heard ≠ .failed t) :
    (l.after (l.listened deadline now)).Live := by
  unfold listened at hf ⊢
  rcases pop_live h with ⟨hpop, hasks⟩ | ⟨heard, r, hpop, -, hlive⟩
  · simp only [hpop] at hf ⊢
    exact listen_live l.lines deadline l.inboxShut now hasks hf
  · simp only [hpop] at hf ⊢
    exact hlive hf

end Link

end VoiceRelay
