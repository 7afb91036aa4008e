import VoiceRelay.Query.Link
import VoiceRelay.Proofs.Lines

/-!
# Reading from the other side

A read walks over pieces of the stream, silences and troubles, and may give up in the middle of a
line. None of this shows in what is read: a line that is read is the first line of all octets that
were still to come, and a read that gives no line leaves all of them to come.

**Design.** `Link.octets` are the octets still to come: those in the buffer and those the script will
deliver. `Heard.Takes` says what a read does to them. A link that is handing out its last octets has
nothing left in its script (`Link.Drained`); every read and write keeps that.

**Results.**

- `pop_takes`, `listen_takes`: what handing out and reading do to the octets still to come.
- `hear_takes`: the same for a connection.
- `hear_log`: a connection logs the lines it reads and nothing else.
-/

namespace VoiceRelay

section Defs

/-- The octets that a script can still deliver; nothing comes after the end of the stream. -/
def scriptOctets : List Step → List UInt8
  | [] => []
  | .data octets :: script => octets ++ scriptOctets script
  | .silence _ :: script => scriptOctets script
  | .silentUntil _ :: script => scriptOctets script
  | .awaitLines _ :: script => scriptOctets script
  | .trouble _ :: script => scriptOctets script
  | .finish :: _ => []
  | .shutInbox :: script => scriptOctets script

/-- What a read does to the octets that are still to come: a line is taken off their front, any
other outcome leaves them. -/
def Heard.Takes (heard : Heard) (before after : List UInt8) : Prop :=
  match heard with
  | .line text => ∃ line, text = Line.textOf line ∧ Line.take true before = some (line, after)
  | _ => after = before

/-- The octets that are still to come on a connection. -/
def Link.octets (l : Link) : List UInt8 := l.reader.buffer ++ scriptOctets l.script

/-- A connection that hands out its last octets has nothing left in its script. -/
def Link.Drained (l : Link) : Prop := l.reader.phase = .draining → scriptOctets l.script = []

end Defs

section Reading

/-- What is handed out is the first line of the octets still to come. -/
theorem pop_takes {r r' : Reader} {heard : Heard} (h : r.pop = some (heard, r'))
    (more : List UInt8) (hd : r.phase = .draining → more = []) :
    heard.Takes (r.buffer ++ more) (r'.buffer ++ more) ∧
      (r'.phase = .draining → r.phase = .draining) := by
  unfold Reader.pop at h
  split at h
  · cases h
  · next hphase =>
    split at h
    · next text rest hdec =>
      cases h
      obtain ⟨line, rfl, ht⟩ := Line.decode_eq_line hdec
      exact ⟨⟨line, rfl, Line.take_append ht more⟩, fun hp => hp⟩
    · cases h
      exact ⟨rfl, fun hp => by cases hp⟩
    · cases h
  · next hphase =>
    obtain rfl := hd hphase
    split at h
    · next text rest hdec =>
      cases h
      obtain ⟨line, rfl, ht⟩ := Line.decode_eq_line hdec
      simp only [List.append_nil]
      exact ⟨⟨line, rfl, ht⟩, fun hp => hp⟩
    · cases h
      exact ⟨rfl, fun hp => by cases hp⟩
    · cases h
      exact ⟨rfl, fun hp => by cases hp⟩
  · cases h
    exact ⟨rfl, fun hp => hp⟩
  · cases h
    exact ⟨rfl, fun hp => by cases hp⟩

/-- **Reading takes a line off the front or nothing**, wherever the pieces of the stream end and
however long the silences between them are. -/
theorem listen_takes (lines : Nat) (deadline : Deadline) (r : Reader) (shut : Bool) (now : Nat)
    (script : List Step) (hd : r.phase = .draining → scriptOctets script = []) :
    (listen lines deadline r shut now script).heard.Takes (r.buffer ++ scriptOctets script)
        ((listen lines deadline r shut now script).reader.buffer ++
          scriptOctets (listen lines deadline r shut now script).script) ∧
      ((listen lines deadline r shut now script).reader.phase = .draining →
        scriptOctets (listen lines deadline r shut now script).script = []) := by
  induction script generalizing r shut now with
  | nil => exact ⟨rfl, hd⟩
  | cons s script ih =>
    cases s with
    | data octets =>
      simp only [listen, scriptOctets] at hd ⊢
      split
      · next he =>
        obtain rfl : octets = [] := List.isEmpty_iff.1 he
        exact ih r shut now hd
      · -- What was received joins the buffer; the whole stays what it was.
        have hbuf : r.buffer ++ (octets ++ scriptOctets script) =
            (r.feed octets).buffer ++ scriptOctets script := by simp [Reader.feed]
        have hphase : (r.feed octets).phase ≠ .draining := by simp [Reader.feed]
        rw [hbuf]
        split
        · next heard r' hp =>
          obtain ⟨ht, hd'⟩ := pop_takes hp (scriptOctets script) (fun h => absurd h hphase)
          exact ⟨ht, fun h => absurd (hd' h) hphase⟩
        · exact ih (r.feed octets) shut now (fun h => absurd h hphase)
    | silence length =>
      simp only [listen, scriptOctets] at hd ⊢
      split
      · exact ⟨rfl, hd⟩
      · exact ih r shut (now + length) hd
    | silentUntil time =>
      simp only [listen, scriptOctets] at hd ⊢
      split
      · exact ⟨rfl, hd⟩
      · exact ih r shut (max now time) hd
    | awaitLines count =>
      simp only [listen, scriptOctets] at hd ⊢
      split
      · exact ih r shut now hd
      · exact ⟨rfl, hd⟩
    | trouble cause =>
      simp only [listen, scriptOctets]
      exact ⟨rfl, fun h => by cases h⟩
    | finish =>
      simp only [listen, scriptOctets]
      split
      · next heard r' hp =>
        exact ⟨(pop_takes hp [] (fun _ => rfl)).1, fun _ => rfl⟩
      · exact ⟨rfl, fun _ => rfl⟩
    | shutInbox =>
      simp only [listen, scriptOctets] at hd ⊢
      exact ih r true now hd

end Reading

namespace Link

section Hearing

/-- **What a connection reads.** A line is taken off the octets still to come, and any other outcome
leaves them all to come. -/
theorem hear_takes (l : Link) (deadline : Deadline) (now : Nat) (hd : l.Drained) :
    (l.hear deadline now).1.Takes l.octets (l.hear deadline now).2.2.octets ∧
      (l.hear deadline now).2.2.Drained := by
  unfold hear
  cases hp : l.reader.pop with
  | none =>
    have h := listen_takes l.lines deadline l.reader l.inboxShut now l.script hd
    simp only
    split
    · next text ht =>
      rw [ht] at h
      exact h
    · exact h
  | some popped =>
    obtain ⟨heard, r⟩ := popped
    have h := pop_takes hp (scriptOctets l.script) hd
    simp only
    split
    · exact ⟨h.1, fun hr => hd (h.2 hr)⟩
    · exact ⟨h.1, fun hr => hd (h.2 hr)⟩

/-- A connection logs the lines it reads and nothing else. -/
theorem hear_log (l : Link) (deadline : Deadline) (now : Nat) :
    (l.hear deadline now).2.2.log =
      match (l.hear deadline now).1 with
      | .line text => .heard (l.hear deadline now).2.1 text :: l.log
      | _ => l.log := by
  unfold hear
  cases l.reader.pop with
  | none =>
    simp only
    split
    · rfl
    · simp only
  | some popped =>
    simp only
    split
    · rfl
    · simp only

/-- Writing takes nothing off the octets still to come. -/
theorem send_octets (l : Link) (now : Nat) (command : String) :
    (l.send now command).2.octets = l.octets := by
  unfold send
  split
  · rfl
  · simp only
    split <;> rfl

theorem send_drained {l : Link} (now : Nat) (command : String) (hd : l.Drained) :
    (l.send now command).2.Drained := by
  unfold send
  split
  · exact hd
  · simp only
    split <;> exact hd

end Hearing

end Link
end VoiceRelay
