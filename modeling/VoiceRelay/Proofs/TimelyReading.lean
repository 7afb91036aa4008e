import VoiceRelay.Proofs.Arrivals
import VoiceRelay.Proofs.Hearing

/-!
# Reading what is delivered in time

When the other side delivers its octets is written in its script, and so is the moment by which a number
of them has been delivered, whatever pieces they come in. A connection on which no read has failed reads
every line that is delivered before its deadline, and reads nothing of what comes after it.

**Design.** `delivery` walks a script until enough octets have come; it knows sizes and times and
nothing of lines. `Link.Untroubled` is a history: a connection that was opened, written to and read from,
where no read failed. `Reader.Ready` is what such a history keeps true of the reader.

**Results.**

- `Untroubled.ready`: what no failure means for the reader.
- `delivery_shift`: what was read of the octets makes no difference to when the rest is there.
- `listen_line`, `hear_line`: a line that is delivered in time is read.
-/

namespace VoiceRelay

section Defs

/-- The other side after it has delivered some octets: the time, how many more octets than these were
delivered with them, and what it still has to say. -/
structure Delivery where
  time : Nat
  surplus : Nat
  script : List Step
  deriving DecidableEq, Repr

/-- When `needed` octets have been delivered, of which `present` are there already, to someone who has
sent some lines; `none` if that never happens. -/
def delivery (lines needed now present : Nat) (script : List Step) : Option Delivery :=
  if needed ≤ present then some ⟨now, present - needed, script⟩
  else
    match script with
    | [] => none
    | .data octets :: rest => delivery lines needed now (present + octets.length) rest
    | .silence length :: rest => delivery lines needed (now + length) present rest
    | .silentUntil time :: rest => delivery lines needed (max now time) present rest
    | .awaitLines count :: rest =>
      if count ≤ lines then delivery lines needed now present rest else none
    | .trouble _ :: _ => none
    | .finish :: _ => none
    | .shutInbox :: rest => delivery lines needed now present rest

namespace Link

/-- When `needed` octets have been delivered on a connection. -/
def delivery (l : Link) (needed now : Nat) : Option Delivery :=
  VoiceRelay.delivery l.lines needed now l.reader.buffer.length l.script

/-- A connection on which no read has failed. -/
inductive Untroubled : Link → Prop
  | opened (p : Peer) (shut : Bool) : Untroubled { ofPeer p with inboxShut := shut }
  | sent {l : Link} (now : Nat) (text : String) : Untroubled l → Untroubled (l.send now text).2
  | heard {l : Link} (deadline : Deadline) (now : Nat) : Untroubled l →
      (∀ t, (l.hear deadline now).1 ≠ .failed t) → Untroubled (l.hear deadline now).2.2
  | published {l : Link} (s : StreamState) : Untroubled l → Untroubled (l.note (.published s))

end Link

/-- A reader that has not failed, and what its phase says of the octets it holds and of those that are
still to come. -/
structure Reader.Ready (r : Reader) (script : List Step) : Prop where
  sound : r.phase ≠ .failed
  receiving : r.phase = .receiving → r.buffer = []
  draining : r.phase = .draining → scriptOctets script = []
  past : r.phase = .past → r.buffer = [] ∧ scriptOctets script = []

end Defs

section Deliveries

variable {lines needed now present : Nat} {script : List Step} {d : Delivery}

theorem delivery_of_le (lines now : Nat) (script : List Step) (h : needed ≤ present) :
    delivery lines needed now present script = some ⟨now, present - needed, script⟩ := by
  rw [delivery.eq_def, if_pos h]

theorem delivery_later (h : delivery lines needed now present script = some d) : now ≤ d.time := by
  induction script generalizing now present with
  | nil =>
    rw [delivery.eq_def] at h
    split at h <;> cases h
    exact Nat.le_refl now
  | cons s script ih =>
    rw [delivery.eq_def] at h
    split at h
    · cases h
      exact Nat.le_refl now
    cases s with
    | data octets => exact ih h
    | silence length => exact Nat.le_trans (Nat.le_add_right now length) (ih h)
    | silentUntil time => exact Nat.le_trans (Nat.le_max_left now time) (ih h)
    | awaitLines count =>
      simp only at h
      split at h
      · exact ih h
      · cases h
    | trouble cause => cases h
    | finish => cases h
    | shutInbox => exact ih h

/-- **What was read makes no difference to when the rest is there.** -/
theorem delivery_shift (lines needed now present k : Nat) (script : List Step) :
    delivery lines (needed + k) now (present + k) script =
      delivery lines needed now present script := by
  induction script generalizing now present with
  | nil =>
    rw [delivery.eq_def, delivery.eq_def lines needed]
    simp only [Nat.add_le_add_iff_right, Nat.add_sub_add_right]
  | cons s script ih =>
    rw [delivery.eq_def, delivery.eq_def lines needed]
    simp only [Nat.add_le_add_iff_right, Nat.add_sub_add_right]
    cases s with
    | data octets => simp only [Nat.add_right_comm present k, ih]
    | silence length => simp only [ih]
    | silentUntil time => simp only [ih]
    | awaitLines count => simp only [ih]
    | trouble cause => rfl
    | finish => rfl
    | shutInbox => simp only [ih]

theorem delivery_sub (lines now : Nat) (script : List Step) {k : Nat} (hneeded : k ≤ needed)
    (hpresent : k ≤ present) :
    delivery lines (needed - k) now (present - k) script =
      delivery lines needed now present script := by
  have h := delivery_shift lines (needed - k) now (present - k) k script
  rw [Nat.sub_add_cancel hneeded, Nat.sub_add_cancel hpresent] at h
  exact h.symm

end Deliveries

section Histories

variable {r : Reader} {script : List Step}

/-- More octets make any reader ready. -/
theorem feed_ready (r : Reader) (octets : List UInt8) (script : List Step) :
    (r.feed octets).Ready script :=
  ⟨by simp [Reader.feed], by simp [Reader.feed], by simp [Reader.feed], by simp [Reader.feed]⟩

theorem send_reader (l : Link) (now : Nat) (text : String) :
    (l.send now text).2.reader = l.reader ∧ (l.send now text).2.script = l.script := by
  unfold Link.send
  split
  · exact ⟨rfl, rfl⟩
  · simp only
    split <;> exact ⟨rfl, rfl⟩

/-- **No failed read leaves the reader live.** -/
theorem Link.Untroubled.live {l : Link} (h : l.Untroubled) : l.Live := by
  induction h with
  | opened p shut => exact ⟨by simp [ofPeer, Reader.fresh], fun _ => rfl, by simp [ofPeer, Reader.fresh]⟩
  | sent now text _ ih =>
    rw [Live, (send_reader _ now text).1, (send_reader _ now text).2]
    exact ih
  | heard deadline now _ hf ih =>
    rw [hear_eq] at hf ⊢
    exact hear_live deadline now ih hf
  | published s _ ih => exact ih

/-- After the end of the stream there are no octets to come. -/
theorem Reader.Live.ready (h : r.Live script) : r.Ready script where
  sound := h.sound
  receiving := h.receiving
  draining hphase := by
    obtain ⟨-, rest, rfl⟩ := h.ended (Or.inl hphase)
    rfl
  past hphase := by
    obtain ⟨hnil, rest, rfl⟩ := h.ended (Or.inr hphase)
    exact ⟨hnil, rfl⟩

/-- **What no failure means for the reader.** -/
theorem Link.Untroubled.ready {l : Link} (h : l.Untroubled) : l.reader.Ready l.script :=
  h.live.ready

end Histories

section Reading

variable {lines needed now : Nat} {deadline : Deadline} {r : Reader} {script : List Step}
  {line rest : List UInt8} {d : Delivery}

theorem before_mono {t t' : Nat} (h : deadline.before t' = false) (hle : t ≤ t') :
    deadline.before t = false := by
  cases deadline with
  | none => rfl
  | some e =>
    simp only [Deadline.before, decide_eq_false_iff_not, Nat.not_lt] at *
    omega

/-- A buffer that holds a part of a short line asks for more. -/
theorem decode_of_part {data more : List UInt8} {limit : Nat} (hnone : Line.cut data = none)
    (hcut : Line.cut (data ++ more) = some (line, rest)) (hshort : line.length < limit) :
    Line.decode limit false data = .more := by
  have hle := Line.length_le_of_cut_none hnone (Line.take_of_cut hcut)
  rw [Line.decode, Line.take_false, hnone]
  simp only
  rw [if_neg (by omega)]

/-- A line is shorter by its delimiter than the octets that it is cut from. -/
theorem cut_length_eq {data : List UInt8} (h : Line.cut data = some (line, rest)) :
    data.length = line.length + 2 + rest.length := by
  rw [Line.cut_eq h, List.length_append, List.length_append]
  rfl

/-- A ready reader hands the next line out if it holds the whole of it, and nothing otherwise. -/
theorem pop_line (h : r.Ready script)
    (hcut : Line.cut (r.buffer ++ scriptOctets script) = some (line, rest))
    (hshort : line.length < r.limit) :
    (r.pop = none ∧ Line.cut r.buffer = none) ∨
      ∃ left, r.pop = some (.line (Line.textOf line), { r with buffer := left }) ∧
        left ++ scriptOctets script = rest ∧ r.buffer.length = line.length + 2 + left.length := by
  cases hphase : r.phase with
  | receiving =>
    refine Or.inl ⟨?_, ?_⟩
    · simp only [Reader.pop, hphase]
    · rw [h.receiving hphase]
      exact Line.cut_nil
  | framing =>
    rcases hbuffer : Line.cut r.buffer with _ | ⟨first, left⟩
    · have hmore := decode_of_part hbuffer hcut hshort
      exact Or.inl ⟨by simp only [Reader.pop, hphase, hmore], rfl⟩
    · have hwhole := Line.cut_append hbuffer (scriptOctets script)
      rw [hcut] at hwhole
      obtain ⟨rfl, rfl⟩ : line = first ∧ rest = left ++ scriptOctets script := by simpa using hwhole
      have hline := Line.decode_of_cut r.limit false hbuffer
      exact Or.inr ⟨left, by simp only [Reader.pop, hphase, hline], rfl, cut_length_eq hbuffer⟩
  | draining =>
    rw [h.draining hphase, List.append_nil] at hcut
    have hline := Line.decode_of_cut r.limit true hcut
    refine Or.inr ⟨rest, by simp only [Reader.pop, hphase, hline], ?_, cut_length_eq hcut⟩
    rw [h.draining hphase, List.append_nil]
  | past =>
    obtain ⟨hbuffer, hscript⟩ := h.past hphase
    rw [hbuffer, hscript] at hcut
    cases hcut
  | failed => exact absurd hphase h.sound

/-- **A line that is delivered in time is read**, in whatever pieces it comes, and the rest of the
octets that are needed is there when it would have been. -/
theorem listen_line (shut : Bool) (hnone : Line.cut r.buffer = none)
    (hcut : Line.cut (r.buffer ++ scriptOctets script) = some (line, rest))
    (hshort : line.length < r.limit) (hneeded : line.length + 2 ≤ needed)
    (hd : delivery lines needed now r.buffer.length script = some d)
    (htime : deadline.before d.time = false) :
    ∃ now' r' script' shut', listen lines deadline r shut now script =
        ⟨.line (Line.textOf line), now', r', script', shut'⟩ ∧
      r'.limit = r.limit ∧ r'.buffer ++ scriptOctets script' = rest ∧
      delivery lines (needed - (line.length + 2)) now' r'.buffer.length script' = some d := by
  induction script generalizing r now shut with
  | nil =>
    rw [scriptOctets, List.append_nil, hnone] at hcut
    cases hcut
  | cons s script ih =>
    have hlen := Line.length_le_of_cut_none hnone (Line.take_of_cut hcut)
    rw [delivery.eq_def, if_neg (by omega)] at hd
    cases s with
    | data octets =>
      simp only [listen, scriptOctets] at hcut hd ⊢
      by_cases he : octets.isEmpty = true
      · obtain rfl := List.isEmpty_iff.1 he
        rw [if_pos he]
        exact ih shut hnone hcut hshort hd
      · rw [if_neg he]
        have hcut' : Line.cut ((r.feed octets).buffer ++ scriptOctets script) = some (line, rest) := by
          simpa [Reader.feed] using hcut
        have hd' : delivery lines needed now (r.feed octets).buffer.length script = some d := by
          simpa [Reader.feed] using hd
        rcases pop_line (feed_ready r octets script) hcut' hshort with
          ⟨hpop, hfed⟩ | ⟨left, hpop, hleft, hlength⟩
        · simp only [hpop]
          exact ih shut hfed hcut' hshort hd'
        · -- The piece completes the line; nothing after it is touched.
          simp only [hpop]
          refine ⟨_, _, _, _, rfl, rfl, hleft, ?_⟩
          have hsub := delivery_sub lines now script hneeded (by omega : line.length + 2 ≤
            (r.feed octets).buffer.length)
          rw [← hd', ← hsub, hlength, Nat.add_sub_cancel_left]
    | silence length =>
      have hopen := before_mono htime (delivery_later hd)
      simp only [listen, hopen, Bool.false_eq_true, if_false]
      exact ih shut hnone hcut hshort hd
    | silentUntil time =>
      have hopen := before_mono htime (delivery_later hd)
      have htime' := before_mono hopen (Nat.le_max_right now time)
      simp only [listen, htime', Bool.false_eq_true, if_false]
      exact ih shut hnone hcut hshort hd
    | awaitLines count =>
      simp only at hd
      split at hd
      · next hcount =>
        simp only [listen, if_pos hcount]
        exact ih shut hnone hcut hshort hd
      · cases hd
    | trouble cause => cases hd
    | finish => cases hd
    | shutInbox => exact ih true hnone hcut hshort hd

end Reading

namespace Link

/-- A connection after lines were read: some octets are still to come, no read has failed, and nothing
else has changed. -/
structure HasRead (l l' : Link) (rest : List UInt8) : Prop where
  untroubled : l'.Untroubled
  octets_eq : l'.octets = rest
  limit_eq : l'.reader.limit = l.reader.limit
  writes_eq : l'.writes = l.writes
  accepted_eq : l'.accepted = l.accepted
  sent_eq : l'.sentOctets = l.sentOctets

variable {l : Link}

theorem HasRead.trans {l₁ l₂ l₃ : Link} {rest rest' : List UInt8} (h : l₁.HasRead l₂ rest)
    (h' : l₂.HasRead l₃ rest') : l₁.HasRead l₃ rest' where
  untroubled := h'.untroubled
  octets_eq := h'.octets_eq
  limit_eq := h'.limit_eq.trans h.limit_eq
  writes_eq := h'.writes_eq.trans h.writes_eq
  accepted_eq := h'.accepted_eq.trans h.accepted_eq
  sent_eq := h'.sent_eq.trans h.sent_eq

theorem sentOctets_heard (l : Link) (time : Nat) (text : String) :
    (l.note (.heard time text)).sentOctets = l.sentOctets := by
  simp [sentOctets, note]

/-- **A connection reads the line that is delivered next**, if no read has failed on it. -/
theorem hear_line {deadline : Deadline} {now needed : Nat} {line rest : List UInt8} {d : Delivery}
    (hl : l.Untroubled) (hcut : Line.cut l.octets = some (line, rest))
    (hshort : line.length < l.reader.limit) (hneeded : line.length + 2 ≤ needed)
    (hd : l.delivery needed now = some d) (htime : deadline.before d.time = false) :
    ∃ now' l', l.hear deadline now = (.line (Line.textOf line), now', l') ∧ l.HasRead l' rest ∧
      l'.delivery (needed - (line.length + 2)) now' = some d := by
  have hnext := Untroubled.heard deadline now hl
  unfold hear at hnext ⊢
  rcases pop_line hl.ready hcut hshort with ⟨hpop, hnone⟩ | ⟨left, hpop, hleft, hlength⟩
  · obtain ⟨now', r', script', shut', hlisten, hlimit, hoctets, hd'⟩ :=
      listen_line l.inboxShut hnone hcut hshort hneeded hd htime
    simp only [hpop, hlisten] at hnext ⊢
    have hread : l.HasRead _ rest :=
      ⟨hnext fun t => by simp, hoctets, hlimit, rfl, rfl, sentOctets_heard _ _ _⟩
    exact ⟨_, _, rfl, hread, hd'⟩
  · simp only [hpop] at hnext ⊢
    have hread : l.HasRead _ rest :=
      ⟨hnext fun t => by simp, hleft, rfl, rfl, rfl, sentOctets_heard _ _ _⟩
    refine ⟨_, _, rfl, hread, ?_⟩
    have hsub := delivery_sub l.lines now l.script hneeded
      (by omega : line.length + 2 ≤ l.reader.buffer.length)
    unfold delivery at hd
    rw [← hd, ← hsub, hlength, Nat.add_sub_cancel_left]
    rfl

end Link

end VoiceRelay
