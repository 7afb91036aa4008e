import VoiceRelay.Proofs.Hearing

/-!
# Reading a stream that nothing disturbs

If the stream brings no trouble and its lines are short enough, a read ends in one of three ways: it
gives the next line, it gives nothing because its time is over before the next line is whole, or it
gives the end when no octet is left.

**Design.** `Link.Steady` is the invariant of such a connection. `Link.Passes` says that some lines were
read: all lines of before are these and all lines of after. As long as the end of the stream was not
seen the same is true of the lines that a delimiter ends.

**Results.**

- `listen_reads`: the three ways in which a read of a script ends.
- `hear_steady`: the same for a connection, which stays steady.
-/

namespace VoiceRelay

section Defs

/-- A step that brings neither a trouble nor the end of the hub's queue. -/
def Step.Calm : Step → Prop
  | .trouble _ => False
  | .shutInbox => False
  | _ => True

/-- Every line of some octets is shorter than a reader allows. -/
def Line.Short (octets : List UInt8) : Prop :=
  ∀ line ∈ Line.all octets, line.length < Line.defaultLimit

/-- A reader that has met neither a trouble nor the end. -/
structure Reader.Fit (r : Reader) : Prop where
  limit_eq : r.limit = Line.defaultLimit
  phase : r.phase = .receiving ∧ r.buffer = [] ∨ r.phase = .framing ∨ r.phase = .draining

/-- How a read ends that starts with a reader and a script and leaves others. -/
inductive Reader.Reads (r : Reader) (script : List Step) (r' : Reader) (script' : List Step) :
    Heard → Prop
  | line {line : List UInt8} : r'.Fit →
      Line.take true (r.buffer ++ scriptOctets script) =
        some (line, r'.buffer ++ scriptOctets script') →
      (r'.phase ≠ .draining → r.phase ≠ .draining ∧
        Line.cut (r.buffer ++ scriptOctets script) =
          some (line, r'.buffer ++ scriptOctets script')) →
      Reads r script r' script' (.line (Line.textOf line))
  | nothing : r'.Fit → r'.phase ≠ .draining → r.phase ≠ .draining → Line.cut r'.buffer = none →
      r'.buffer ++ scriptOctets script' = r.buffer ++ scriptOctets script →
      Reads r script r' script' .nothing
  | ended : r.buffer ++ scriptOctets script = [] → Reads r script r' script' .ended

namespace Link

/-- A connection on which only lines will be read, and then the end. -/
structure Steady (l : Link) : Prop where
  calm : ∀ s ∈ l.script, s.Calm
  fit : l.reader.Fit
  short : Line.Short l.octets
  inbox : l.inboxShut = false
  drained : l.Drained

/-- Some lines were read, and the connection is still steady. -/
structure Passes (l : Link) (lines : List (List UInt8)) (l' : Link) : Prop where
  steady : l'.Steady
  all_eq : Line.all l.octets = lines ++ Line.all l'.octets
  ended_eq : l'.reader.phase ≠ .draining →
    l.reader.phase ≠ .draining ∧ Line.ended l.octets = lines ++ Line.ended l'.octets

/-- No whole line was received, and the end was not seen. -/
def Waiting (l : Link) : Prop := l.reader.phase ≠ .draining ∧ Line.cut l.reader.buffer = none

/-- How a read on a steady connection ends. -/
inductive Hears (l l' : Link) : Heard → Prop
  | line {line : List UInt8} : l.Passes [line] l' → Hears l l' (.line (Line.textOf line))
  | nothing : l.Passes [] l' → l'.Waiting → Hears l l' .nothing
  | ended : l.octets = [] → Hears l l' .ended

end Link

end Defs

section Reading

theorem Line.Short.of_take {data line rest : List UInt8} (h : Line.Short data)
    (ht : Line.take true data = some (line, rest)) : Line.Short rest := by
  intro other hother
  refine h other ?_
  rw [Line.all_take ht]
  exact List.mem_cons_of_mem _ hother

/-- Where lines are short, what was received without a delimiter is not too long. -/
theorem Line.Short.length_le {data more : List UInt8} (h : Line.Short (data ++ more))
    (hn : Line.cut data = none) : data.length ≤ Line.defaultLimit := by
  cases ht : Line.take true (data ++ more) with
  | none =>
    have hnil := Line.take_eq_none.1 ht
    simp [List.append_eq_nil_iff.1 hnil]
  | some parts =>
    obtain ⟨line, rest⟩ := parts
    have hle := Line.length_le_of_cut_none hn ht
    have hlt := h line (by rw [Line.all_take ht]; exact List.mem_cons_self)
    omega

variable {r r' : Reader} {script : List Step}

/-- What a fit reader hands out without reading. -/
theorem pop_reads {heard : Heard} (hf : r.Fit)
    (hs : Line.Short (r.buffer ++ scriptOctets script))
    (hd : r.phase = .draining → scriptOctets script = []) (h : r.pop = some (heard, r')) :
    Reader.Reads r script r' script heard := by
  unfold Reader.pop at h
  rcases hf.phase with ⟨hphase, -⟩ | hphase | hphase
  all_goals simp only [hphase] at h
  · cases h
  · split at h
    · next text rest hdec =>
      cases h
      obtain ⟨line, rfl, ht⟩ := Line.decode_eq_line hdec
      rw [Line.take_false] at ht
      have hcut := Line.cut_append ht (scriptOctets script)
      refine .line ⟨hf.limit_eq, Or.inr (Or.inl rfl)⟩ (Line.take_of_cut hcut) fun _ => ?_
      exact ⟨by simp [hphase], hcut⟩
    · next n hdec =>
      obtain ⟨hnone, hlt, -⟩ := Line.decode_eq_tooLong hdec
      rw [Line.take_false] at hnone
      have hle := hs.length_le hnone
      rw [hf.limit_eq] at hlt
      omega
    · cases h
  · have hnil := hd hphase
    split at h
    · next text rest hdec =>
      cases h
      obtain ⟨line, rfl, ht⟩ := Line.decode_eq_line hdec
      refine .line ⟨hf.limit_eq, Or.inr (Or.inr rfl)⟩ ?_ fun hne => absurd rfl hne
      simpa [hnil] using ht
    · next n hdec =>
      obtain ⟨hnone, hlt, -⟩ := Line.decode_eq_tooLong hdec
      rw [Line.take_eq_none.1 hnone] at hlt
      cases hlt
    · next hdec =>
      cases h
      refine .ended ?_
      rw [hnil, Line.take_eq_none.1 (Line.decode_eq_more hdec).1]
      rfl

/-- A fit reader that hands nothing out has not seen the end and holds no whole line. -/
theorem pop_none (hf : r.Fit) (h : r.pop = none) :
    r.phase ≠ .draining ∧ Line.cut r.buffer = none := by
  unfold Reader.pop at h
  rcases hf.phase with ⟨hphase, hbuffer⟩ | hphase | hphase
  all_goals simp only [hphase] at h
  · rw [hbuffer]
    exact ⟨by simp [hphase], Line.cut_nil⟩
  · refine ⟨by simp [hphase], ?_⟩
    split at h
    · cases h
    · cases h
    · next hdec =>
      rw [← Line.take_false]
      exact (Line.decode_eq_more hdec).1
  · split at h <;> cases h

/-- Where a reader that has not seen the end stands between buffer and script makes no difference. -/
theorem Reader.Reads.congr {r₀ : Reader} {script₀ script' : List Step} {heard : Heard}
    (h : Reader.Reads r script r' script' heard) (hphase : r₀.phase ≠ .draining)
    (heq : r₀.buffer ++ scriptOctets script₀ = r.buffer ++ scriptOctets script) :
    Reader.Reads r₀ script₀ r' script' heard := by
  cases h with
  | line hf ht hc =>
    refine .line hf (by rw [heq]; exact ht) fun hne => ⟨hphase, ?_⟩
    rw [heq]
    exact (hc hne).2
  | nothing hf hne _ hc hrest => exact .nothing hf hne hphase hc (by rw [heq]; exact hrest)
  | ended hnil => exact .ended (by rw [heq]; exact hnil)

/-- **How a read of a calm script ends**: with the next line, with nothing when its time is over, or
with the end when no octet is left. -/
theorem listen_reads (lines : Nat) (deadline : Deadline) (shut : Bool) (now : Nat) (hf : r.Fit)
    (hnone : r.pop = none) (hcalm : ∀ s ∈ script, s.Calm)
    (hs : Line.Short (r.buffer ++ scriptOctets script)) :
    Reader.Reads r script (listen lines deadline r shut now script).reader
        (listen lines deadline r shut now script).script
        (listen lines deadline r shut now script).heard ∧
      (∀ s ∈ (listen lines deadline r shut now script).script, s.Calm) ∧
      (listen lines deadline r shut now script).inboxShut = shut := by
  obtain ⟨hphase, hcut⟩ := pop_none hf hnone
  induction script generalizing r now with
  | nil => exact ⟨.nothing hf hphase hphase hcut rfl, hcalm, rfl⟩
  | cons s script ih =>
    have hcalm' : ∀ t ∈ script, t.Calm := fun t ht => hcalm t (List.mem_cons_of_mem _ ht)
    cases s with
    | data octets =>
      simp only [listen, scriptOctets] at hs ⊢
      split
      · next he =>
        obtain rfl : octets = [] := List.isEmpty_iff.1 he
        obtain ⟨hreads, hrest⟩ := ih now hf hnone hcalm' hs hphase hcut
        exact ⟨hreads.congr hphase rfl, hrest⟩
      · -- What was received joins the buffer; the whole stays what it was.
        have hbuf : r.buffer ++ (octets ++ scriptOctets script) =
            (r.feed octets).buffer ++ scriptOctets script := by simp [Reader.feed]
        have hf' : (r.feed octets).Fit := ⟨hf.limit_eq, Or.inr (Or.inl rfl)⟩
        have hs' : Line.Short ((r.feed octets).buffer ++ scriptOctets script) := hbuf ▸ hs
        split
        · next heard r' hp =>
          have hreads := pop_reads hf' hs' (fun h => by cases h) hp
          exact ⟨hreads.congr hphase hbuf, hcalm', rfl⟩
        · next hp =>
          obtain ⟨hphase', hcut'⟩ := pop_none hf' hp
          obtain ⟨hreads, hrest⟩ := ih now hf' hp hcalm' hs' hphase' hcut'
          exact ⟨hreads.congr hphase hbuf, hrest⟩
    | silence length =>
      simp only [listen, scriptOctets] at hs ⊢
      split
      · refine ⟨.nothing hf hphase hphase hcut rfl, ?_, rfl⟩
        intro t ht
        rcases List.mem_cons.1 ht with rfl | ht
        · trivial
        · exact hcalm' t ht
      · obtain ⟨hreads, hrest⟩ := ih (now + length) hf hnone hcalm' hs hphase hcut
        exact ⟨hreads.congr hphase rfl, hrest⟩
    | silentUntil time =>
      simp only [listen, scriptOctets] at hs ⊢
      split
      · exact ⟨.nothing hf hphase hphase hcut rfl, hcalm, rfl⟩
      · obtain ⟨hreads, hrest⟩ := ih (max now time) hf hnone hcalm' hs hphase hcut
        exact ⟨hreads.congr hphase rfl, hrest⟩
    | awaitLines count =>
      simp only [listen, scriptOctets] at hs ⊢
      split
      · obtain ⟨hreads, hrest⟩ := ih now hf hnone hcalm' hs hphase hcut
        exact ⟨hreads.congr hphase rfl, hrest⟩
      · exact ⟨.nothing hf hphase hphase hcut rfl, hcalm, rfl⟩
    | trouble cause => exact absurd (hcalm _ List.mem_cons_self) id
    | finish =>
      have hf' : { r with phase := .draining : Reader }.Fit := ⟨hf.limit_eq, Or.inr (Or.inr rfl)⟩
      simp only [listen]
      split
      · next heard r' hp =>
        have hreads : Reader.Reads { r with phase := .draining } (.finish :: script) r'
            (.finish :: script) heard := pop_reads hf' hs (fun _ => rfl) hp
        exact ⟨hreads.congr hphase rfl, hcalm, rfl⟩
      · next hp => exact absurd rfl (pop_none hf' hp).1
    | shutInbox => exact absurd (hcalm _ List.mem_cons_self) id

end Reading

namespace Link

section Passing

variable {l l' : Link}

theorem Passes.refl (h : l.Steady) : l.Passes [] l :=
  ⟨h, rfl, fun hphase => ⟨hphase, rfl⟩⟩

theorem Passes.trans {l₁ l₂ l₃ : Link} {a b : List (List UInt8)} (h : l₁.Passes a l₂)
    (h' : l₂.Passes b l₃) : l₁.Passes (a ++ b) l₃ where
  steady := h'.steady
  all_eq := by rw [h.all_eq, h'.all_eq, List.append_assoc]
  ended_eq hphase := by
    obtain ⟨hphase₂, heq₂⟩ := h'.ended_eq hphase
    obtain ⟨hphase₁, heq₁⟩ := h.ended_eq hphase₂
    exact ⟨hphase₁, by rw [heq₁, heq₂, List.append_assoc]⟩

/-- Noting something passes no line. -/
theorem note_passes (h : l.Steady) (e : Entry) : l.Passes [] (l.note e) :=
  ⟨⟨h.calm, h.fit, h.short, h.inbox, h.drained⟩, rfl, fun hphase => ⟨hphase, rfl⟩⟩

/-- **How a read on a steady connection ends**, whatever its deadline is. -/
theorem hear_steady (h : l.Steady) (deadline : Deadline) (now : Nat) :
    l.Hears (l.hear deadline now).2.2 (l.hear deadline now).1 := by
  have hdrained := (hear_takes l deadline now h.drained).2
  have hreads : Reader.Reads l.reader l.script (l.hear deadline now).2.2.reader
        (l.hear deadline now).2.2.script (l.hear deadline now).1 ∧
      (∀ s ∈ (l.hear deadline now).2.2.script, s.Calm) ∧
      (l.hear deadline now).2.2.inboxShut = false := by
    unfold hear
    cases hp : l.reader.pop with
    | none =>
      have hlisten := listen_reads l.lines deadline l.inboxShut now h.fit hp h.calm h.short
      rw [h.inbox] at hlisten ⊢
      simp only
      split
      · next text heq =>
        rw [heq] at hlisten
        exact hlisten
      · exact hlisten
    | some popped =>
      obtain ⟨heard, r⟩ := popped
      have hpop := pop_reads h.fit h.short h.drained hp
      simp only
      split
      · exact ⟨hpop, h.calm, h.inbox⟩
      · exact ⟨hpop, h.calm, h.inbox⟩
  generalize l.hear deadline now = out at *
  obtain ⟨heard, now', l'⟩ := out
  obtain ⟨hreads, hcalm, hinbox⟩ := hreads
  simp only at hreads hcalm hinbox hdrained ⊢
  cases hreads with
  | line hf ht hc =>
    refine .line ⟨⟨hcalm, hf, h.short.of_take ht, hinbox, hdrained⟩, ?_, ?_⟩
    · exact Line.all_take ht
    · intro hphase
      obtain ⟨hphase', hcut⟩ := hc hphase
      exact ⟨hphase', Line.ended_cut hcut⟩
  | nothing hf hphase' hphase hcut hrest =>
    have hoctets : l'.octets = l.octets := hrest
    refine .nothing ⟨⟨hcalm, hf, ?_, hinbox, hdrained⟩, ?_, fun _ => ⟨hphase, ?_⟩⟩
      ⟨hphase', hcut⟩
    · rw [hoctets]
      exact h.short
    · rw [hoctets, List.nil_append]
    · rw [hoctets, List.nil_append]
  | ended hnil => exact .ended hnil

theorem hears_of_hear (h : l.Steady) {deadline : Deadline} {now now' : Nat} {heard : Heard}
    (heq : l.hear deadline now = (heard, now', l')) : l.Hears l' heard := by
  have hhears := hear_steady h deadline now
  rwa [heq] at hhears

end Passing

end Link

end VoiceRelay
