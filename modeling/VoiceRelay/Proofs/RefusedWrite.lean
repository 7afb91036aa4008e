import VoiceRelay.Proofs.Arrivals
import VoiceRelay.Proofs.Attempts

/-!
# The first write that is refused

A stream may accept some writes and refuse all later ones. Until the first refusal nothing tells such a
stream from one that accepts everything, and a session of the event stream does not outlive the refusal.
So it is the session on the accepting stream, cut off at a write.

**Design.** `Link.Limited` relates a connection that accepts everything to the one that is about to accept
the same writes. `Cut` relates what becomes of an exchange on the two: the same, or a fault at the write
that is one too many. Each function of a session keeps this relation, one lemma each.

**Results.**

- `Limited.hear`, `Limited.send`: reading and writing on the two connections.
- `session_cut`: a session with a refused write.
-/

namespace VoiceRelay

open EventStream (sentIn)

section Defs

/-- A connection that accepts all writes, and the one that differs from it in that it accepts only `k`,
before more were made. -/
structure Link.Limited (k : Nat) (l l' : Link) : Prop where
  limit_eq : l' = { l with accepted := some k }
  accepts : l.accepted = none
  count : l.writes = (sentIn l.log).length
  le : l.writes ≤ k

/-- A connection after its first refused write: what was logged before this write on the connection that
accepts all of them. -/
structure Link.Broken (k : Nat) (log : List Entry) (time : Nat) (l' : Link) : Prop where
  suffix : ∃ octets, .sent time octets :: l'.log <:+ log
  count : (sentIn l'.log).length = k
  writes : l'.writes = k + 1

/-- What becomes of an exchange if only `k` writes are accepted: the same, or a fault at the first write that
is refused. -/
inductive Link.Turn.Cut (k : Nat) {α : Type} : Link.Turn α → Link.Turn α → Prop
  | same {result : Option (Except Fault α)} {now : Nat} {l l' : Link} : l.Limited k l' →
      Link.Turn.Cut k ⟨result, now, l⟩ ⟨result, now, l'⟩
  | broken {result : Option (Except Fault α)} {now time : Nat} {l l' : Link} : l'.Broken k l.log time →
      Link.Turn.Cut k ⟨result, now, l⟩ ⟨some (.error (.stream .brokenPipe)), time, l'⟩

/-- A session without what was made of its messages. -/
def SessionOf.turn {σ : Type} (out : SessionOf σ) : Link.Turn Unit := ⟨out.result, out.now, out.link⟩

end Defs

section Logs

/-- A log is only ever added to. -/
theorem hear_suffix {l l' : Link} {deadline : Deadline} {now time : Nat} {heard : Heard}
    (h : l.hear deadline now = (heard, time, l')) : l.log <:+ l'.log := by
  rw [Link.hear_eq] at h
  obtain rfl := (Prod.mk.inj (Prod.mk.inj h).2).2
  exact List.suffix_append _ _

theorem send_suffix {l l' : Link} {now : Nat} {text : String} {t : Option Trouble}
    (h : l.send now text = (t, l')) : l.log <:+ l'.log := by
  unfold Link.send at h
  split at h
  · cases h
    exact List.suffix_refl _
  · simp only at h
    split at h
    · cases h
      exact List.suffix_refl _
    · cases h
      exact List.suffix_cons _ _

/-- A read writes nothing. -/
theorem sentIn_noted (out : Listened) (log : List Entry) : sentIn (out.noted ++ log) = sentIn log := by
  unfold Listened.noted
  cases out.heard <;> rfl

end Logs

namespace Link

variable {k : Nat} {l l' m : Link} {deadline : Deadline} {now time : Nat} {heard : Heard}

theorem Broken.extend {log log' : List Entry} (h : l'.Broken k log time) (hsuffix : log <:+ log') :
    l'.Broken k log' time := by
  obtain ⟨octets, hlog⟩ := h.suffix
  exact ⟨⟨octets, hlog.trans hsuffix⟩, h.count, h.writes⟩

theorem Limited.shut_eq (h : l.Limited k l') : l'.inboxShut = l.inboxShut := by
  rw [h.limit_eq]

theorem Limited.publish (h : l.Limited k l') (s : StreamState) :
    (l.publish s).Limited k (l'.publish s) where
  limit_eq := by
    rw [h.limit_eq]
    rfl
  accepts := h.accepts
  count := h.count
  le := h.le

/-- Reading is the same on the two connections. -/
theorem Limited.hear (h : l.Limited k l') (hhear : l.hear deadline now = (heard, time, m)) :
    ∃ m', l'.hear deadline now = (heard, time, m') ∧ m.Limited k m' := by
  have hlines : l'.lines = l.lines := by
    simp only [lines, h.limit_eq, h.accepts]
    exact Nat.min_eq_left h.le
  have hsame : l'.listened deadline now = l.listened deadline now := by
    rw [listened, hlines, h.limit_eq]
    rfl
  rw [hear_eq] at hhear ⊢
  rw [hsame]
  generalize l.listened deadline now = out at hhear
  cases hhear
  refine ⟨_, rfl, ?_, h.accepts, ?_, h.le⟩
  · rw [h.limit_eq]
    rfl
  · exact h.count.trans (congrArg List.length (sentIn_noted out l.log)).symm

/-- A write is the same on the two connections, unless it is the first that is refused. -/
theorem Limited.send (h : l.Limited k l') (now : Nat) (text : String) :
    ∃ t m, l.send now text = (t, m) ∧
      ((∃ m', l'.send now text = (t, m') ∧ m.Limited k m') ∨
        ∃ m', l'.send now text = (some .brokenPipe, m') ∧ m'.Broken k m.log now) := by
  have haccepts : l.refuses = false := by rw [refuses, h.accepts]
  have hrefuses : l'.refuses = decide (k ≤ l.writes) := by rw [h.limit_eq, refuses]
  rcases hframe : Line.frame text with _ | octets
  · have hbreak (l : Link) : l.send now text = (some .lineBreak, l) := by simp only [Link.send, hframe]
    exact ⟨_, l, hbreak l, Or.inl ⟨l', hbreak l', h⟩⟩
  · refine ⟨none, Link.note { l with writes := l.writes + 1 } (.sent now octets), ?_, ?_⟩
    · simp [Link.send, hframe, haccepts]
    rcases Nat.lt_or_ge l.writes k with hlt | hge
    · refine Or.inl ⟨Link.note { l' with writes := l'.writes + 1 } (.sent now octets), ?_, ?_⟩
      · simp [Link.send, hframe, hrefuses, hlt]
      · refine ⟨?_, h.accepts, congrArg (· + 1) h.count, hlt⟩
        rw [h.limit_eq]
        rfl
    · -- All writes that are accepted were made.
      have hall : l.writes = k := Nat.le_antisymm h.le hge
      have hlog : l'.log = l.log ∧ l'.writes = l.writes := by
        rw [h.limit_eq]
        exact ⟨rfl, rfl⟩
      refine Or.inr ⟨{ l' with writes := l'.writes + 1 }, ?_, ?_⟩
      · simp [Link.send, hframe, hrefuses, hge]
      · refine ⟨⟨octets, ?_⟩, ?_, ?_⟩
        · rw [hlog.1]
          exact List.suffix_refl _
        · exact (congrArg (fun log => (sentIn log).length) hlog.1).trans (h.count.symm.trans hall)
        · exact congrArg (· + 1) (hlog.2.trans hall)

/-- Nothing is written while the greeting is read. -/
theorem Limited.greet (h : l.Limited k l') (patience : Deadline) (now : Nat) :
    ∃ result time m m', l.greet patience now = ⟨result, time, m⟩ ∧
      l'.greet patience now = ⟨result, time, m'⟩ ∧ m.Limited k m' := by
  unfold Link.greet
  rcases hfirst : l.hear patience now with ⟨heard, time, m⟩
  obtain ⟨m', hfirst', hm⟩ := h.hear hfirst
  rw [hfirst']
  cases heard with
  | nothing | ended | failed t => exact ⟨_, _, m, m', rfl, rfl, hm⟩
  | line first =>
    simp only
    split
    · rcases hsecond : m.hear patience time with ⟨heard, time', n⟩
      obtain ⟨n', hsecond', hn⟩ := hm.hear hsecond
      rw [hsecond']
      cases heard <;> exact ⟨_, _, n, n', rfl, rfl, hn⟩
    · exact ⟨_, _, m, m', rfl, rfl, hm⟩

/-- A command of the handshake and its acknowledgement, on the two connections. -/
theorem Limited.acknowledged (h : l.Limited k l') (patience : Deadline) (now : Nat) (text : String) :
    (l.acknowledged patience now text).Cut k (l'.acknowledged patience now text) := by
  unfold Link.acknowledged
  obtain ⟨t, m, hsend, ⟨m', hsend', hm⟩ | ⟨m', hsend', hm⟩⟩ := h.send now text
  · rw [hsend, hsend']
    cases t with
    | some t => exact .same hm
    | none =>
      simp only
      rcases hhear : m.hear patience now with ⟨heard, time, n⟩
      obtain ⟨n', hhear', hn⟩ := hm.hear hhear
      rw [hhear']
      cases heard <;> exact .same hn
  · rw [hsend, hsend']
    cases t with
    | some t => exact .broken hm
    | none =>
      simp only
      rcases hhear : m.hear patience now with ⟨heard, time, n⟩
      have hbroken := hm.extend (hear_suffix hhear)
      cases heard <;> exact .broken hbroken

theorem acknowledged_suffix (l : Link) (patience : Deadline) (now : Nat) (text : String) :
    l.log <:+ (l.acknowledged patience now text).link.log := by
  unfold acknowledged
  rcases hsend : l.send now text with ⟨t, m⟩
  cases t with
  | some t => exact send_suffix hsend
  | none =>
    simp only
    rcases hhear : m.hear patience now with ⟨heard, time, n⟩
    have hlog := (send_suffix hsend).trans (hear_suffix hhear)
    cases heard <;> exact hlog

end Link

namespace EventStream

variable {k : Nat} {l l' : Link} {σ : Type}

theorem register_suffix (stopAt now : Nat) (l : Link) (texts : List String) :
    l.log <:+ (register stopAt now l texts).link.log := by
  induction texts generalizing l now with
  | nil => exact List.suffix_refl _
  | cons text texts ih =>
    have hack := l.acknowledged_suffix (some stopAt) now text
    unfold register
    generalize l.acknowledged (some stopAt) now text = turn at *
    obtain ⟨result, time, m⟩ := turn
    rcases result with _ | f | _
    · exact hack
    · exact hack
    · exact hack.trans (ih time m)

/-- The rest of the handshake, on the two connections. -/
theorem register_cut (h : l.Limited k l') (stopAt now : Nat) (texts : List String) :
    (register stopAt now l texts).Cut k (register stopAt now l' texts) := by
  induction texts generalizing l l' now with
  | nil => exact .same h
  | cons text texts ih =>
    have hknown := h.acknowledged (some stopAt) now text
    unfold register
    generalize l.acknowledged (some stopAt) now text = turn,
      l'.acknowledged (some stopAt) now text = turn' at *
    cases hknown with
    | @same result time m m' hm =>
      rcases result with _ | f | _
      · exact .same hm
      · exact .same hm
      · exact ih hm time
    | @broken result time _ m m' hm =>
      rcases result with _ | f | _
      · exact .broken hm
      · exact .broken hm
      · exact .broken (hm.extend (register_suffix stopAt time m texts))

theorem streamWith_suffix (take : σ → Bool → String → σ) (beat stopAt now : Nat) (x : σ) (l : Link) :
    l.log <:+ (streamWith take beat stopAt now x l).link.log := by
  fun_induction streamWith take beat stopAt now x l with
  | case1 _ _ _ _ _ _ heq | case4 _ _ _ _ _ _ heq | case5 _ _ _ _ _ _ _ heq
  | case7 _ _ _ _ _ _ _ heq => exact hear_suffix heq
  | case2 _ _ _ _ _ _ heq _ _ _ hsent => exact (hear_suffix heq).trans (send_suffix hsent)
  | case3 _ _ _ _ _ _ heq _ _ hsent ih => exact ((hear_suffix heq).trans (send_suffix hsent)).trans ih
  | case6 _ _ _ _ _ _ _ heq _ ih => exact (hear_suffix heq).trans ih
  | case8 _ _ _ _ _ _ _ heq _ _ _ _ ih => exact (hear_suffix heq).trans ih

/-- Relaying, on the two connections. -/
theorem streamWith_cut (take : σ → Bool → String → σ) (beat stopAt now : Nat) (x : σ) (l : Link) :
    ∀ l', l.Limited k l' → (streamWith take beat stopAt now x l).turn.Cut k
      (streamWith take beat stopAt now x l').turn := by
  fun_induction streamWith take beat stopAt now x l with
  | case1 now x l due now' m heq hlate =>
    intro l' h
    obtain ⟨m', heq', hm⟩ := h.hear heq
    rw [streamWith_eq, heq']
    simp only [due] at hlate
    simp only [if_pos hlate]
    exact .same hm
  | case2 now x l due now' m heq hlate t n hsent =>
    intro l' h
    obtain ⟨m', heq', hm⟩ := h.hear heq
    rw [streamWith_eq, heq']
    simp only [due] at hlate hsent
    obtain ⟨t', n₀, hsend, ⟨n', hsend', hn⟩ | ⟨n', hsend', hn⟩⟩ := hm.send (now + max 1 beat) ""
    · cases hsent.symm.trans hsend
      simp only [if_neg hlate, hsend']
      exact .same hn
    · cases hsent.symm.trans hsend
      simp only [if_neg hlate, hsend']
      exact .broken hn
  | case3 now x l due now' m heq hlate n hsent ih =>
    intro l' h
    obtain ⟨m', heq', hm⟩ := h.hear heq
    rw [streamWith_eq take beat stopAt now x l', heq']
    simp only [due] at hlate hsent ih ⊢
    obtain ⟨t', n₀, hsend, ⟨n', hsend', hn⟩ | ⟨n', hsend', hn⟩⟩ := hm.send (now + max 1 beat) ""
    · cases hsent.symm.trans hsend
      simp only [if_neg hlate, hsend']
      exact ih n' hn
    · cases hsent.symm.trans hsend
      simp only [if_neg hlate, hsend']
      exact .broken (hn.extend (streamWith_suffix take beat stopAt _ x n))
  | case4 now x l due now' m heq | case5 now x l due t now' m heq =>
    intro l' h
    obtain ⟨m', heq', hm⟩ := h.hear heq
    rw [streamWith_eq, heq']
    exact .same hm
  | case6 now x l due text now' m heq htext ih =>
    intro l' h
    obtain ⟨m', heq', hm⟩ := h.hear heq
    rw [streamWith_eq take beat stopAt now x l', heq']
    simp only [htext]
    exact ih m' hm
  | case7 now x l due text now' m heq message htext x' hshut =>
    intro l' h
    obtain ⟨m', heq', hm⟩ := h.hear heq
    rw [streamWith_eq, heq']
    simp only [htext, hm.shut_eq, if_pos hshut]
    exact .same hm
  | case8 now x l due text now' m heq message htext x' hshut ih =>
    intro l' h
    obtain ⟨m', heq', hm⟩ := h.hear heq
    rw [streamWith_eq take beat stopAt now x l', heq']
    simp only [htext, hm.shut_eq, if_neg hshut]
    exact ih m' hm

/-- **A session with a refused write** is the session without it, cut off at this write. -/
theorem session_cut (take : σ → Bool → String → σ) (s : StreamSettings) (stopAt now : Nat) (x : σ)
    (h : l.Limited k l') : (sessionWith take s stopAt now x l).turn.Cut k
      (sessionWith take s stopAt now x l').turn := by
  obtain ⟨result, time, m, m', hgreet, hgreet', hm⟩ := (h.publish .handshaking).greet (some stopAt) now
  unfold sessionWith
  simp only [hgreet, hgreet']
  rcases result with _ | f | ⟨⟩
  · exact .same hm
  · exact .same hm
  · have hregister := register_cut hm stopAt time (handshake s.credentials)
    simp only [registeredWith]
    generalize register stopAt time m (handshake s.credentials) = known,
      register stopAt time m' (handshake s.credentials) = known' at *
    cases hregister with
    | @same result time n n' hn =>
      rcases result with _ | f | ⟨⟩
      · exact .same hn
      · exact .same hn
      · exact streamWith_cut take s.keepalive stopAt time x _ _
          ((hn.publish .registered).publish .streaming)
    | @broken result time _ n n' hn =>
      rcases result with _ | f | ⟨⟩
      · exact .broken hn
      · exact .broken hn
      · have hlog := streamWith_suffix take s.keepalive stopAt time x
          ((n.publish .registered).publish .streaming)
        exact .broken ((hn.extend (List.suffix_append [_, _] n.log)).extend hlog)

end EventStream

end VoiceRelay
