import VoiceRelay.Proofs.Commands
import VoiceRelay.Proofs.Dialogue

/-!
# The grammar of a command connection

On a connection for commands these things are said: the lines of the greeting, then login and choice
of server, then commands that callers ask for. Each command waits for the whole reply to the one
before it, login and choice of server must be accepted, and nothing follows a farewell.

**Design.** `Dialogue` is the grammar of what was said so far. `Exchange.Admits` is what must have
happened before another command may follow; `Link.Ready` is a connection where all of it happened.

**Results.**

- `Dialogue.push`: a command may be added where every exchange so far admits it.
- `Dialogue.commands`: the commands on a connection begin with login and choice of server.
- `command_answers`: a command on a connection that is ready for it obeys the grammar whatever becomes
  of it, and leaves the connection ready if its reply was whole.
-/

namespace VoiceRelay

section Defs

/-- What is said on a connection: the lines of a greeting, and exchanges. -/
def said (opening : List String) (xs : List Exchange) : List Event :=
  opening.map .heard ++ xs.flatMap Exchange.events

/-- Which command may be sent as the `i`-th on a connection. -/
def Allowed (c : Credentials) : Nat → String → Prop
  | 0, text => text = c.login
  | 1, text => text = c.use
  | _ + 2, text => Asked text

/-- After the `i`-th exchange another command may follow: the reply was read up to its status line,
login and choice of server were accepted, and nobody said goodbye. -/
def Exchange.Admits (x : Exchange) (i : Nat) : Prop :=
  ∃ s, x.Closed s ∧ (i < 2 → s.isOk = true) ∧ x.command ≠ "quit"

/-- Every exchange so far admits another command. -/
def Settled (xs : List Exchange) : Prop :=
  ∀ (i : Nat) (x : Exchange), xs[i]? = some x → x.Admits i

/-- The greeting was read and its first line is the banner. -/
def Welcomed (opening : List String) : Prop :=
  ∃ first second, opening = [first, second] ∧ Text.trim first.toList = Link.banner

/-- The grammar of a connection. -/
structure Dialogue (k : Credentials) (opening : List String) (xs : List Exchange) : Prop where
  opening_length : opening.length ≤ 2
  welcomed : xs ≠ [] → Welcomed opening
  allowed : ∀ (i : Nat) (x : Exchange), xs[i]? = some x → Allowed k i x.command
  unbroken : ∀ x ∈ xs, Line.breaks x.command = false
  admits : ∀ (i : Nat) (x : Exchange), xs[i]? = some x → i + 1 < xs.length → x.Admits i

/-- What was said on a connection is a beginning of what may be said. -/
def Link.Speaks (k : Credentials) (l : Link) : Prop :=
  ∃ opening xs, l.transcript = said opening xs ∧ Dialogue k opening xs

/-- A connection on which the next command may be sent. -/
structure Link.Ready (k : Credentials) (opening : List String) (xs : List Exchange) (l : Link) :
    Prop where
  transcript_eq : l.transcript = said opening xs
  dialogue : Dialogue k opening xs
  settled : Settled xs
  welcomed : Welcomed opening

/-- A connection that is signed in and whose commands were all answered. -/
def Link.InSync (k : Credentials) (l : Link) : Prop :=
  ∃ opening xs, l.Ready k opening xs ∧ 2 ≤ xs.length

end Defs

section Grammar

variable {k : Credentials} {opening : List String} {xs : List Exchange}

theorem said_push (opening : List String) (xs : List Exchange) (x : Exchange) :
    said opening (xs ++ [x]) = said opening xs ++ x.events := by
  simp [said]

theorem getElem?_push {x y : Exchange} {i : Nat} (h : (xs ++ [x])[i]? = some y) :
    xs[i]? = some y ∨ (i = xs.length ∧ y = x) := by
  rcases Nat.lt_trichotomy i xs.length with hi | rfl | hi
  · rw [List.getElem?_append_left hi] at h
    exact Or.inl h
  · rw [List.getElem?_concat_length] at h
    cases h
    exact Or.inr ⟨rfl, rfl⟩
  · rw [List.getElem?_eq_none (by simp; omega)] at h
    cases h

theorem Dialogue.nil (k : Credentials) {opening : List String} (h : opening.length ≤ 2) :
    Dialogue k opening [] where
  opening_length := h
  welcomed h := absurd rfl h
  allowed i x h := by simp at h
  unbroken x h := by simp at h
  admits i x h := by simp at h

/-- A command may be added where every exchange so far admits it. -/
theorem Dialogue.push (h : Dialogue k opening xs) (hset : Settled xs) (hw : Welcomed opening)
    {x : Exchange} (hx : Allowed k xs.length x.command) (hb : Line.breaks x.command = false) :
    Dialogue k opening (xs ++ [x]) where
  opening_length := h.opening_length
  welcomed _ := hw
  allowed i y hy := by
    rcases getElem?_push hy with hy | ⟨rfl, rfl⟩
    · exact h.allowed i y hy
    · exact hx
  unbroken y hy := by
    rcases List.mem_append.1 hy with hy | hy
    · exact h.unbroken y hy
    · rw [List.mem_singleton.1 hy]
      exact hb
  admits i y hy hi := by
    rcases getElem?_push hy with hy | ⟨rfl, rfl⟩
    · exact hset i y hy
    · simp at hi

theorem Settled.nil : Settled [] := by
  intro i x h
  simp at h

theorem Settled.push (h : Settled xs) {x : Exchange} (hx : x.Admits xs.length) :
    Settled (xs ++ [x]) := by
  intro i y hy
  rcases getElem?_push hy with hy | ⟨rfl, rfl⟩
  · exact h i y hy
  · exact hx

theorem allowed_of_asked {n : Nat} (hn : 2 ≤ n) {text : String} (h : Asked text) :
    Allowed k n text := by
  match n, hn with
  | n + 2, _ => exact h

/-- The commands on a connection begin with login and choice of server. -/
theorem Dialogue.commands (h : Dialogue k opening xs) :
    ∃ asked : List String, (∀ text ∈ asked, Asked text) ∧
      xs.map (·.command) <+: k.login :: k.use :: asked := by
  match xs, h with
  | [], _ => exact ⟨[], by simp, List.nil_prefix⟩
  | [x], h =>
    have hx : x.command = k.login := h.allowed 0 x rfl
    refine ⟨[], by simp, ?_⟩
    simp [hx]
  | x :: y :: rest, h =>
    have hx : x.command = k.login := h.allowed 0 x rfl
    have hy : y.command = k.use := h.allowed 1 y rfl
    refine ⟨rest.map (·.command), ?_, ?_⟩
    · intro text ht
      obtain ⟨z, hz, rfl⟩ := List.mem_map.1 ht
      obtain ⟨i, hi, rfl⟩ := List.getElem_of_mem hz
      exact h.allowed (i + 2) rest[i] (by simp [hi])
    · simp [hx, hy]

theorem said_octets (opening : List String) (xs : List Exchange) :
    (said opening xs).flatMap Event.octets = xs.flatMap fun x => Line.written x.command := by
  have hlines : ∀ lines : List String, (lines.map Event.heard).flatMap Event.octets = [] := by
    intro lines
    simp [Event.octets]
  rw [said, List.flatMap_append, hlines, List.nil_append, List.flatMap_assoc]
  congr 1
  funext x
  simp [Exchange.events, Event.octets]

theorem login_ne_quit (k : Credentials) : k.login ≠ "quit" := by
  intro h
  have := congrArg String.toList h
  simp [Credentials.login] at this

theorem use_ne_quit (k : Credentials) : k.use ≠ "quit" := by
  intro h
  have := congrArg String.toList h
  simp [Credentials.use] at this

theorem Greeted.length_le {r : Option (Except Fault Unit)} (h : Greeted opening r) :
    opening.length ≤ 2 := by
  cases h with
  | whole ho _ => simp [ho]
  | broken ho _ => exact ho
  | givenUp ho => exact ho

end Grammar

namespace Link

section Commands

variable {k : Credentials} {opening : List String} {xs : List Exchange} {l : Link}

/-- What becomes of a command on a connection that has said `xs` before: whether the connection can
be used again, and what the command returns. -/
inductive Answers (k : Credentials) (opening : List String) (xs : List Exchange) (text : String)
    (after : Link) : Option (Except Fault (List Record)) → Prop
  | accepted {x : Exchange} {s : Status} : x.command = text → x.Closed s → s.isOk = true →
      after.Ready k opening (xs ++ [x]) → Answers k opening xs text after (some (.ok x.records))
  | refused {x : Exchange} {s : Status} : x.command = text → x.Closed s → s.isOk = false →
      after.transcript = said opening (xs ++ [x]) →
      (2 ≤ xs.length → after.Ready k opening (xs ++ [x])) →
      Answers k opening xs text after (some (.error (.refusal s.id s.message)))
  | lost {f : Fault} : f.losesLink = true → Answers k opening xs text after (some (.error f))
  | givenUp : Answers k opening xs text after none

theorem sentOctets_eq (l : Link) : l.sentOctets = l.transcript.flatMap Event.octets := by
  unfold sentOctets transcript
  induction l.log.reverse with
  | nil => rfl
  | cons e log ih =>
    rw [List.flatMap_cons, ih]
    cases e with
    | published events => simp [Entry.event?, List.filterMap_cons]
    | _ => simp [Entry.event?, Event.octets]

theorem Ready.speaks (h : l.Ready k opening xs) : l.Speaks k :=
  ⟨opening, xs, h.transcript_eq, h.dialogue⟩

/-- **A command on a connection that is ready for it.** Whatever becomes of it, what was said is a
beginning of what may be said, and the connection is ready again if the reply was whole. -/
theorem command_answers (h : l.Ready k opening xs) {text : String}
    (ha : Allowed k xs.length text) (hq : text ≠ "quit") (timeLimit : Nat) (patience : Deadline)
    (now : Nat) :
    Answers k opening xs text (l.command timeLimit patience now text).link
        (l.command timeLimit patience now text).result ∧
      (l.command timeLimit patience now text).link.Speaks k ∧
      ∃ events, l.Continues (l.command timeLimit patience now text).link events := by
  rcases l.command_gives timeLimit patience now text with
    ⟨t, hr, hc⟩ | ⟨x, rfl, hb, hc, hgives⟩
  · rw [hr]
    refine ⟨.lost rfl, ⟨opening, xs, ?_, h.dialogue⟩, _, hc⟩
    rw [hc.transcript_eq, h.transcript_eq, List.append_nil]
  · generalize l.command timeLimit patience now x.command = turn at *
    have htr : turn.link.transcript = said opening (xs ++ [x]) := by
      rw [hc.transcript_eq, h.transcript_eq, said_push]
    have hd : Dialogue k opening (xs ++ [x]) := h.dialogue.push h.settled h.welcomed ha hb
    refine ⟨?_, ⟨opening, xs ++ [x], htr, hd⟩, _, hc⟩
    have hready : ∀ s, x.Closed s → (xs.length < 2 → s.isOk = true) →
        turn.link.Ready k opening (xs ++ [x]) := fun s hs hok =>
      ⟨htr, hd, h.settled.push ⟨s, hs, hok, hq⟩, h.welcomed⟩
    rcases hres : turn.result with _ | r
    all_goals rw [hres] at hgives
    · exact .givenUp
    · cases hgives with
      | @accepted s hs hok => exact .accepted rfl hs hok (hready s hs fun _ => hok)
      | @refused s hs hok =>
        exact .refused rfl hs hok htr fun hlen => hready s hs fun hlt => by omega
      | broken _ hf => exact .lost hf

end Commands

end Link

end VoiceRelay
