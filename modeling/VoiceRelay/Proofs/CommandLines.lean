import VoiceRelay.Query.Link
import VoiceRelay.Proofs.Utf8Text

/-!
# One line for each accepted command

Commands are put one behind the other into the octets that wait to be sent, and the other side cuts them
apart at line feeds. Whatever texts callers pass, it finds the accepted commands and nothing else: a
command with a line break is refused as a whole, and no other character is encoded with an octet that
looks like one.

**Design.** `Line.Unbroken` tells which commands are accepted, by their characters. `Line.putAll` puts
several commands, and what they add is followed from the front: each accepted command closes one line.

**Results.**

- `put_eq`: what putting one command does.
- `splitOn_putAll`: the lines that some commands add.
- `commands_on_lines`: accepted commands and lines are the same, and a refused command leaves no trace.
-/

namespace VoiceRelay

namespace Line

section Defs

/-- A command without a line break. -/
def Unbroken (command : String) : Prop := '\n' ∉ command.toList ∧ '\r' ∉ command.toList

instance (command : String) : Decidable (Unbroken command) :=
  inferInstanceAs (Decidable (_ ∧ _))

/-- Puts some commands behind the octets that wait to be sent, one after the other. -/
def putAll (out : List UInt8) : List String → List (Option Trouble) × List UInt8
  | [] => ([], out)
  | command :: commands =>
    let first := put out command
    let rest := putAll first.2 commands
    (first.1 :: rest.1, rest.2)

end Defs

section Commands

theorem breaks_eq_false_iff (command : String) : breaks command = false ↔ Unbroken command := by
  unfold breaks Unbroken
  rw [List.any_eq_false]
  constructor
  · intro h
    exact ⟨fun hn => h _ hn (by simp), fun hr => h _ hr (by simp)⟩
  · rintro ⟨hn, hr⟩ c hc
    simp only [Bool.or_eq_true, beq_iff_eq, not_or]
    exact ⟨fun h => hn (h ▸ hc), fun h => hr (h ▸ hc)⟩

/-- **Putting one command**: all of it and a line feed, or nothing. -/
theorem put_eq (out : List UInt8) (command : String) :
    put out command =
      if Unbroken command then (none, out ++ Utf8.encode command.toList ++ [lf])
      else (some .lineBreak, out) := by
  unfold put frame
  by_cases h : Unbroken command
  · rw [if_pos h, (breaks_eq_false_iff command).2 h]
    simp
  · rw [if_neg h, if_pos (by simpa using mt (breaks_eq_false_iff command).1 h)]

theorem put_eq_none_iff (out : List UInt8) (command : String) :
    (put out command).1 = none ↔ Unbroken command := by
  rw [put_eq]
  split <;> simp [*]

/-- The octets of an accepted command hold no line feed. -/
theorem lf_not_mem_encode {command : String} (h : Unbroken command) :
    lf ∉ Utf8.encode command.toList := fun hlf => h.1 (Utf8.mem_encode hlf (by decide))

end Commands

section Runs

theorem putAll_append (out : List UInt8) (front rest : List String) :
    putAll out (front ++ rest) =
      ((putAll out front).1 ++ (putAll (putAll out front).2 rest).1,
        (putAll (putAll out front).2 rest).2) := by
  induction front generalizing out with
  | nil => rfl
  | cons command front ih => simp [putAll, ih]

theorem putAll_length (out : List UInt8) (commands : List String) :
    (putAll out commands).1.length = commands.length := by
  induction commands generalizing out with
  | nil => rfl
  | cons command commands ih => simp [putAll, ih]

/-- The call for the `i`-th command finds what the commands before it have put there. -/
theorem putAll_getElem {commands : List String} {i : Nat} {command : String}
    (h : commands[i]? = some command) (out : List UInt8) :
    let before := (putAll out (commands.take i)).2
    (putAll out commands).1[i]? = some (put before command).1 ∧
      (putAll out (commands.take (i + 1))).2 = (put before command).2 := by
  intro before
  obtain ⟨hi, rfl⟩ := List.getElem?_eq_some_iff.1 h
  constructor
  · have hsplit : commands = commands.take i ++ commands[i] :: commands.drop (i + 1) := by
      rw [← List.drop_eq_getElem_cons hi, List.take_append_drop]
    have hfront : (putAll out (commands.take i)).1.length = i := by
      rw [putAll_length, List.length_take, Nat.min_eq_left (Nat.le_of_lt hi)]
    have hall := putAll_append out (commands.take i) (commands[i] :: commands.drop (i + 1))
    rw [← hsplit] at hall
    rw [hall, List.getElem?_append_right (Nat.le_of_eq hfront), hfront, Nat.sub_self]
    rfl
  · rw [List.take_add_one, List.getElem?_eq_getElem hi, putAll_append]
    rfl

/-- **The lines that some commands add**: one for each accepted command, and nothing behind the last. -/
theorem splitOn_putAll (out : List UInt8) (commands : List String) :
    ∃ added, (putAll out commands).2 = out ++ added ∧
      added.splitOn lf =
        (commands.filter Unbroken).map (fun c => Utf8.encode c.toList) ++ [[]] ∧
      added.count lf = (commands.filter Unbroken).length := by
  induction commands generalizing out with
  | nil => exact ⟨[], (List.append_nil out).symm, rfl, rfl⟩
  | cons command commands ih =>
    by_cases h : Unbroken command
    · obtain ⟨added, hout, hlines, hcount⟩ := ih (out ++ Utf8.encode command.toList ++ [lf])
      have hlf := lf_not_mem_encode h
      have hfilter : (command :: commands).filter Unbroken = command :: commands.filter Unbroken :=
        List.filter_cons_of_pos (by simpa using h)
      refine ⟨Utf8.encode command.toList ++ lf :: added, ?_, ?_, ?_⟩
      · rw [putAll, put_eq, if_pos h]
        simpa using hout
      · rw [List.splitOn_append_cons_self_of_not_mem hlf, hlines, hfilter]
        rfl
      · rw [List.count_append, List.count_eq_zero_of_not_mem hlf, List.count_cons_self, hcount,
          hfilter, List.length_cons, Nat.zero_add]
    · obtain ⟨added, hout, hlines⟩ := ih out
      refine ⟨added, ?_, ?_⟩
      · rw [putAll, put_eq, if_neg h]
        exact hout
      · rwa [List.filter_cons_of_neg (by simpa using h)]

/-- As many lines as accepted calls. -/
theorem count_putAll (out : List UInt8) (commands : List String) :
    (putAll out commands).1.count none = (commands.filter Unbroken).length := by
  induction commands generalizing out with
  | nil => rfl
  | cons command commands ih =>
    rw [putAll, List.count_cons, ih, put_eq]
    by_cases h : Unbroken command <;> simp [h]

end Runs

section Connections

/-- A connection sends what such a call puts behind what was sent before, unless its stream takes no more. -/
theorem send_eq_put (l : Link) (now : Nat) (command : String) :
    ((l.send now command).1 = none ↔ Unbroken command ∧ l.refuses = false) ∧
      (l.send now command).2.sentOctets =
        if l.refuses then l.sentOctets else (put l.sentOctets command).2 := by
  unfold Link.send
  by_cases h : Unbroken command
  · simp only [put_eq, h, frame, (breaks_eq_false_iff command).2 h, true_and, if_true]
    rcases l.refuses with _ | _ <;> simp [Link.sentOctets, Link.note]
  · have hbreaks : breaks command = true := by simpa using mt (breaks_eq_false_iff command).1 h
    simp [put_eq, h, frame, hbreaks]

/-- **Accepted commands and lines are the same.** Whatever waits to be sent and whatever commands are put
behind it: a call fails exactly if its command holds a line feed or a carriage return, and then it leaves
what waits as it was. What all calls add is cut at the line feeds into the accepted commands, in order,
each ended by its own, with nothing after the last; so there are as many lines as accepted calls. A
connection whose stream still takes something sends what such a call puts there. -/
theorem commands_on_lines (out : List UInt8) (commands : List String) :
    let run := putAll out commands
    let accepted := commands.filter fun c => decide (Unbroken c)
    (∀ i command, commands[i]? = some command →
      let before := (putAll out (commands.take i)).2
      let after := (putAll out (commands.take (i + 1))).2
      ∃ result, run.1[i]? = some result ∧
        (result ≠ none ↔ '\n' ∈ command.toList ∨ '\r' ∈ command.toList) ∧
        (result ≠ none → result = some .lineBreak ∧ after = before)) ∧
    (∃ added, run.2 = out ++ added ∧
      added.splitOn lf = accepted.map (fun c => Utf8.encode c.toList) ++ [[]] ∧
      added.count lf = run.1.count none ∧ run.1.count none = accepted.length) ∧
    ∀ (l : Link) (now : Nat) (command : String),
      ((l.send now command).1 = none ↔ Unbroken command ∧ l.refuses = false) ∧
        (l.send now command).2.sentOctets =
          if l.refuses then l.sentOctets else (put l.sentOctets command).2 := by
  intro run accepted
  refine ⟨fun i command hi => ?_, ?_, send_eq_put⟩
  · intro before after
    obtain ⟨hresult, hafter⟩ := putAll_getElem hi out
    refine ⟨_, hresult, ?_, fun hfails => ?_⟩
    · rw [ne_eq, put_eq_none_iff, Unbroken, Classical.not_and_iff_not_or_not, Classical.not_not,
        Classical.not_not]
    · have hbroken : ¬ Unbroken command := mt (put_eq_none_iff before command).2 hfails
      rw [put_eq, if_neg hbroken] at hafter ⊢
      exact ⟨rfl, hafter⟩
  · obtain ⟨added, hadded, hlines, hcount⟩ := splitOn_putAll out commands
    have haccepted : run.1.count none = accepted.length := count_putAll out commands
    exact ⟨added, hadded, hlines, hcount.trans haccepted.symm, haccepted⟩

/-- A command with a line break between two others, one of them with octets of all lengths. -/
example : putAll [1] ["gm é€😀", "quit\r", "use 1"] =
    ([none, some .lineBreak, none],
      [1, 103, 109, 32, 195, 169, 226, 130, 172, 240, 159, 152, 128, 10, 117, 115, 101, 32, 49, 10]) := by
  decide +kernel

end Connections

end Line

end VoiceRelay
