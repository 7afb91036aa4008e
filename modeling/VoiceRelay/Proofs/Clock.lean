import VoiceRelay.Query.Client

/-!
# Time never runs backwards

Reading waits, and a command may wait several times, each time until something arrives or until its
caller or its own limit gives up. What is done on a connection ends no earlier than it began, and no
later than the deadline of its caller.

**Results.**

- `listen_later`, `hear_later`: a read ends between the moment at which it began and its deadline.
- `serve_later`: so does every served request.
-/

namespace VoiceRelay

/-- A moment no earlier than another one, when a deadline has not run out yet. -/
structure Deadline.Later (deadline : Deadline) (now now' : Nat) : Prop where
  le : now ≤ now'
  pending : deadline.before now' = false

namespace Deadline

variable {deadline : Deadline} {now now' now'' : Nat}

theorem Later.refl (h : deadline.before now = false) : deadline.Later now now :=
  ⟨Nat.le_refl now, h⟩

theorem Later.trans (h : deadline.Later now now') (h' : deadline.Later now' now'') :
    deadline.Later now now'' :=
  ⟨Nat.le_trans h.le h'.le, h'.pending⟩

theorem Later.of_le (h : deadline.Later now' now'') (hle : now ≤ now') :
    deadline.Later now now'' :=
  ⟨Nat.le_trans hle h.le, h.pending⟩

/-- Waiting in vain ends at the deadline. -/
theorem later_getD (h : deadline.before now = false) :
    deadline.Later now (deadline.getD now) := by
  cases deadline with
  | none => exact Later.refl h
  | some time =>
    have hle : now ≤ time := by simpa [before] using h
    exact ⟨hle, by simp [before]⟩

theorem before_earlier (a b : Deadline) (time : Nat) :
    (a.earlier b).before time = (a.before time || b.before time) := by
  cases a with
  | none => cases b <;> simp [earlier, before]
  | some s =>
    cases b with
    | none => simp [earlier, before]
    | some t =>
      rw [Bool.eq_iff_iff]
      simp only [earlier, before, Bool.or_eq_true, decide_eq_true_eq]
      omega

/-- A deadline that comes after a time has not run out there. -/
theorem before_of_le (h : now ≤ now') : before (some now') now = false := by
  simpa [before] using h

end Deadline

/-- A read ends no earlier than it began and no later than its deadline. -/
theorem listen_later (lines : Nat) (deadline : Deadline) (r : Reader) (shut : Bool) (now : Nat)
    (script : List Step) (h : deadline.before now = false) :
    deadline.Later now (listen lines deadline r shut now script).now := by
  induction script generalizing r shut now with
  | nil => exact Deadline.later_getD h
  | cons s script ih =>
    cases s with
    | data octets =>
      simp only [listen]
      split
      · exact ih r shut now h
      · split
        · exact .refl h
        · exact ih _ shut now h
    | silence length =>
      simp only [listen]
      split
      · exact Deadline.later_getD h
      · next hopen =>
        have hend : deadline.before (now + length) = false := by simpa using hopen
        exact (ih r shut (now + length) hend).of_le (Nat.le_add_right now length)
    | silentUntil time =>
      simp only [listen]
      split
      · exact Deadline.later_getD h
      · next hopen =>
        have hend : deadline.before (max now time) = false := by
          cases deadline with
          | none => rfl
          | some limit =>
            simp only [Deadline.before, decide_eq_false_iff_not, Nat.not_lt, Bool.not_eq_true] at *
            omega
        exact (ih r shut (max now time) hend).of_le (Nat.le_max_left now time)
    | awaitLines count =>
      simp only [listen]
      split
      · exact ih r shut now h
      · exact Deadline.later_getD h
    | trouble cause =>
      simp only [listen]
      exact .refl h
    | finish =>
      simp only [listen]
      split <;> exact .refl h
    | shutInbox =>
      simp only [listen]
      exact ih r true now h

namespace Link

variable {patience : Deadline} {now : Nat}

theorem hear_later (l : Link) (h : patience.before now = false) :
    patience.Later now (l.hear patience now).2.1 := by
  unfold hear
  cases hp : l.reader.pop with
  | none =>
    have hlisten := listen_later l.lines patience l.reader l.inboxShut now l.script h
    simp only
    split <;> exact hlisten
  | some popped =>
    simp only
    split <;> exact .refl h

theorem greet_later (l : Link) (h : patience.before now = false) :
    patience.Later now (l.greet patience now).now := by
  unfold greet
  have hfirst := l.hear_later h
  rcases h₁ : l.hear patience now with ⟨heard, now₁, l₁⟩
  rw [h₁] at hfirst
  cases heard with
  | nothing | ended | failed _ => exact hfirst
  | line first =>
    simp only
    split
    · have hsecond := l₁.hear_later hfirst.pending
      rcases h₂ : l₁.hear patience now₁ with ⟨heard, now₂, l₂⟩
      rw [h₂] at hsecond
      cases heard <;> exact hfirst.trans hsecond
    · exact hfirst

theorem reply_later (l : Link) (records : List Record) (h : patience.before now = false) :
    patience.Later now (l.reply patience now records).now := by
  fun_induction Link.reply l patience now records with
  | case1 l now records now' l' hh | case2 l now records now' l' hh | case3 l now records t now' l' hh
  | case4 l now records text now' l' hh s hs hok | case5 l now records text now' l' hh s hs hok =>
    have hhear := l.hear_later h
    rw [hh] at hhear
    exact hhear
  | case6 l now records text now' l' hh hs ih =>
    have hhear := l.hear_later h
    rw [hh] at hhear
    exact hhear.trans (ih hhear.pending)

theorem command_later (l : Link) (timeLimit : Nat) (text : String)
    (h : patience.before now = false) :
    patience.Later now (l.command timeLimit patience now text).now := by
  unfold command
  rcases l.send now text with ⟨t?, l₁⟩
  cases t? with
  | some t => exact .refl h
  | none =>
    -- The reply has a deadline of its own besides that of the caller.
    have hboth : (Deadline.earlier (some (now + timeLimit)) patience).before now = false := by
      rw [Deadline.before_earlier, Deadline.before_of_le (Nat.le_add_right ..), h]
      rfl
    have hreply := l₁.reply_later [] hboth
    have hlater : patience.Later now
        (l₁.reply (Deadline.earlier (some (now + timeLimit)) patience) now []).now := by
      refine ⟨hreply.le, ?_⟩
      have hpending := hreply.pending
      rw [Deadline.before_earlier, Bool.or_eq_false_iff] at hpending
      exact hpending.2
    simp only
    split
    · exact hlater
    · split <;> exact hlater

theorem acknowledged_later (l : Link) (text : String) (h : patience.before now = false) :
    patience.Later now (l.acknowledged patience now text).now := by
  unfold Link.acknowledged
  rcases l.send now text with ⟨t?, l₁⟩
  cases t? with
  | some t => exact .refl h
  | none =>
    have hhear := l₁.hear_later h
    simp only
    rcases hheard : l₁.hear patience now with ⟨heard, now₁, l₂⟩
    rw [hheard] at hhear
    cases heard <;> exact hhear

theorem writeLine_now (l : Link) (now : Nat) (text : String) :
    (l.writeLine now text).now = now := by
  unfold writeLine
  rcases l.send now text with ⟨t?, l₁⟩
  cases t? <;> rfl

end Link

namespace Client

variable {patience : Deadline} {now : Nat}

theorem signIn_later (c : Client) (h : patience.before now = false) :
    patience.Later now (c.signIn patience now).2.1 := by
  unfold signIn
  rcases c.dial with ⟨opened, c₁⟩
  cases opened with
  | error f => exact .refl h
  | ok l =>
    have hgreet := l.greet_later h
    simp only
    generalize l.greet patience now = greeted at *
    rcases greeted.result with _ | f | ⟨⟩
    · exact hgreet
    · exact hgreet
    · have hlogin := hgreet.trans
        (greeted.link.command_later Link.defaultTimeLimit c₁.credentials.login hgreet.pending)
      simp only
      generalize greeted.link.command Link.defaultTimeLimit patience greeted.now
        c₁.credentials.login = known at *
      rcases known.result with _ | f | _
      · exact hlogin
      · exact hlogin
      · have huse := hlogin.trans
          (known.link.command_later Link.defaultTimeLimit c₁.credentials.use hlogin.pending)
        simp only
        generalize known.link.command Link.defaultTimeLimit patience known.now
          c₁.credentials.use = ready at *
        rcases ready.result with _ | f | _ <;> exact huse

theorem runOn_later (c : Client) (l : Link) (text : String) (h : patience.before now = false) :
    patience.Later now (c.runOn l patience now text).now := by
  unfold runOn
  have hcommand := l.command_later Link.defaultTimeLimit text h
  simp only
  generalize l.command Link.defaultTimeLimit patience now text = turn at *
  rcases turn.result with _ | f | _ <;> exact hcommand

theorem perform_later (c : Client) (text : String) (h : patience.before now = false) :
    patience.Later now (c.perform patience now text).now := by
  unfold perform
  rcases c.slot with _ | l
  · have hsign := c.signIn_later h
    simp only
    generalize c.signIn patience now = signed at *
    rcases signed with ⟨_ | f | l, now₁, c₁⟩
    · exact hsign
    · exact hsign
    · exact hsign.trans (c₁.runOn_later l text hsign.pending)
  · exact runOn_later _ l text h

/-- **A served request ends no earlier than it began**, and no later than its caller waits. -/
theorem serve_later (c : Client) (r : Request) (h : patience.before now = false) :
    patience.Later now (c.serve patience now r).now := by
  unfold serve
  split
  · unfold leave
    rcases c.slot with _ | l
    · exact .refl h
    · simp only [Link.writeLine_now]
      exact .refl h
  · exact .refl h
  · exact c.perform_later _ h

end Client

end VoiceRelay
