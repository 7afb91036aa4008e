import VoiceRelay.Server.ClientTimes
import VoiceRelay.Proofs.Numerals
import VoiceRelay.Proofs.RecordLines

/-!
# Printed times of clients

What the program prints about its clients is read back line by line: an entry from each line that is one,
nothing from the others. The limit is one on lines and not on entries, so a line that holds no entry takes
the place of one.

**Design.** An `Entry` and a `Filler` are a line's content with what makes it this kind of line: the number
of an entry stays below the bound and its name can stand at the end of a line; a filler is `Void`, that is,
blank, or without a tab, or with something else than such a number before its first tab. An output is any
list of both, each with or without a return in front of its line feed.

**Results.**

- `ofLine?_eq_none_iff`: the void lines are those that hold no entry.
- `ofLine?_printed`: what a line of the output holds.
- `parse_output`: what is read of an output under a limit.
- `times_read_back`: the same, and what one more filler and a larger limit change.
-/

namespace VoiceRelay

section Trimming

/-- Taking off what the end of a text does not have changes nothing. -/
theorem rdropWhile_of_last {α : Type} {drop : α → Bool} {l : List α}
    (h : ∀ a, l.getLast? = some a → drop a = false) : l.rdropWhile drop = l :=
  List.rdropWhile_eq_self_iff.2 fun hne => by
    rw [h _ (List.getLast?_eq_some_getLast hne)]
    exact Bool.false_ne_true

theorem trim_of_unblank {cs : List Char} (h : ∀ c ∈ cs, Text.isBlank c = false) : Text.trim cs = cs := by
  have hstart : Text.trimStart cs = cs :=
    List.dropWhile_eq_self_iff.2 fun hne => by
      rw [h _ (List.getElem_mem hne)]
      exact Bool.false_ne_true
  rw [Text.trim, hstart]
  exact rdropWhile_of_last fun c hlast => h c (List.mem_of_getLast? hlast)

theorem trim_of_blank {cs : List Char} (h : ∀ c ∈ cs, Text.isBlank c = true) : Text.trim cs = [] := by
  rw [Text.trim, Text.trimStart, List.dropWhile_eq_nil_iff.2 h]
  rfl

theorem isBlank_of_isDigit {c : Char} (h : Decimal.isDigit c = true) : Text.isBlank c = false := by
  simp only [Decimal.isDigit, Bool.and_eq_true, decide_eq_true_eq, Char.le_def, UInt32.le_iff_toNat_le]
    at h
  have hlow : 48 ≤ c.toNat := h.1
  have hhigh : c.toNat ≤ 57 := h.2
  simp only [Text.isBlank, Bool.or_eq_false_iff, Bool.and_eq_false_iff, decide_eq_false_iff_not,
    beq_eq_false_iff_ne]
  omega

end Trimming

namespace ClientTimes

section Defs

/-- An entry that has a line of its own: its number can be read, and its name neither breaks the line nor
ends in a return. -/
structure Entry where
  time : ClientTime
  small : time.total < Decimal.bound64
  unbroken : '\n' ∉ time.name.toList
  settled : time.name.toList.getLast? ≠ some '\r'

/-- The lines that hold no entry. -/
inductive Void : List Char → Prop
  | blank {line : List Char} : (∀ c ∈ line, Text.isBlank c = true) → Void line
  | tabless {line : List Char} : '\t' ∉ line → Void line
  | unnumbered {front rest : List Char} : '\t' ∉ front →
      (∀ n < Decimal.bound64, ¬ Decimal.Spells (Text.trim front) n) → Void (front ++ '\t' :: rest)

/-- Something on a line of its own that is no entry. -/
structure Filler where
  line : List Char
  unbroken : '\n' ∉ line
  void : Void line

/-- What stands on a line. -/
inductive Content
  | entry (e : Entry)
  | filler (f : Filler)

/-- A content as it is written: an entry as its number, a tab and its name. -/
def Content.chars : Content → List Char
  | entry e => Decimal.digits e.time.total ++ '\t' :: e.time.name.toList
  | filler f => f.line

/-- The entry that a content is, if it is one. -/
def Content.time? : Content → Option ClientTime
  | entry e => some e.time
  | filler _ => none

/-- A line without its line feed, before which a return may stand. -/
structure Printed where
  content : Content
  returned : Bool

/-- The characters of a line without its line feed. -/
def Printed.chars (p : Printed) : List Char := p.content.chars ++ if p.returned then ['\r'] else []

/-- An output: its lines, each with its line feed, which the last line may also lack. -/
def output (lines : List Printed) (ended : Bool) : List Char :=
  if ended then lines.flatMap fun p => p.chars ++ ['\n'] else Text.join ['\n'] (lines.map Printed.chars)

end Defs

section Reading

variable {line front : List Char}

theorem ofLine?_tabless (h : '\t' ∉ line) : ofLine? line = none := by
  have hnone : line.dropWhile (fun c => !(c == '\t')) = [] :=
    List.dropWhile_eq_nil_iff.2 fun c hc => by simpa using ne_of_mem_of_not_mem hc h
  rw [ofLine?, Text.splitOnce, hnone, Option.bind_none]

theorem ofLine?_tab (h : '\t' ∉ front) (rest : List Char) :
    ofLine? (front ++ '\t' :: rest) =
      (Decimal.read? Decimal.bound64 (Text.trim front)).map fun n => ⟨n, .ofList (dropReturns rest)⟩ := by
  have hsplit : Text.splitOnce (· == '\t') (front ++ '\t' :: rest) = some (front, rest) :=
    splitOnce_append rest (fun c hc => by simpa using ne_of_mem_of_not_mem hc h) rfl
  rw [ofLine?, hsplit, Option.bind_some]

theorem ofLine?_tab_eq_none_iff (h : '\t' ∉ front) (rest : List Char) :
    ofLine? (front ++ '\t' :: rest) = none ↔
      ∀ n < Decimal.bound64, ¬ Decimal.Spells (Text.trim front) n := by
  rw [ofLine?_tab h, Option.map_eq_none_iff, Decimal.read?_eq_none_iff]

/-- **The void lines are those that hold no entry.** -/
theorem ofLine?_eq_none_iff : ofLine? line = none ↔ Void line := by
  constructor
  · intro hnone
    by_cases htab : '\t' ∈ line
    · obtain ⟨front, rest, rfl, hfront⟩ := List.eq_append_cons_of_mem htab
      exact .unnumbered hfront ((ofLine?_tab_eq_none_iff hfront rest).1 hnone)
    · exact .tabless htab
  · intro hvoid
    cases hvoid with
    | tabless htab => exact ofLine?_tabless htab
    | unnumbered hfront hnone => exact (ofLine?_tab_eq_none_iff hfront _).2 hnone
    | blank hblank =>
      -- If a tab is among the blanks, what stands before the first one is blank, too, and no number.
      by_cases htab : '\t' ∈ line
      · obtain ⟨front, rest, rfl, hfront⟩ := List.eq_append_cons_of_mem htab
        have htrim : Text.trim front = [] :=
          trim_of_blank fun c hc => hblank c (List.mem_append_left _ hc)
        rw [ofLine?_tab hfront, htrim]
        rfl
      · exact ofLine?_tabless htab

/-- A return at the end of a void line leaves it void. -/
theorem Void.concat_return (h : Void line) : Void (line ++ ['\r']) := by
  cases h with
  | blank hblank =>
    refine .blank fun c hc => ?_
    rcases List.mem_append.1 hc with hc | hc
    · exact hblank c hc
    · rw [List.mem_singleton.1 hc]
      decide
  | tabless htab => exact .tabless (by simpa using htab)
  | unnumbered hfront hnone =>
    rw [List.append_assoc, List.cons_append]
    exact .unnumbered hfront hnone

theorem not_mem_digits {c : Char} (h : Decimal.isDigit c = false) (n : Nat) : c ∉ Decimal.digits n := by
  intro hc
  rw [Decimal.digits_isDigit n c hc] at h
  cases h

/-- The return of the line is taken off, and the name has none of its own to lose. -/
theorem Entry.dropReturns_name (e : Entry) (returned : Bool) :
    dropReturns (e.time.name.toList ++ if returned then ['\r'] else []) = e.time.name.toList := by
  have hname : e.time.name.toList.rdropWhile (· == '\r') = e.time.name.toList :=
    rdropWhile_of_last fun c hlast => by
      have hne : c ≠ '\r' := fun heq => e.settled (heq ▸ hlast)
      simpa using hne
  cases returned with
  | false => exact (congrArg dropReturns (List.append_nil _)).trans hname
  | true => exact (List.rdropWhile_concat_pos _ _ _ rfl).trans hname

/-- **What a line of the output holds.** -/
theorem ofLine?_printed (p : Printed) : ofLine? p.chars = p.content.time? := by
  obtain ⟨content, returned⟩ := p
  cases content with
  | filler f =>
    rw [Content.time?, ofLine?_eq_none_iff, Printed.chars, Content.chars]
    cases returned with
    | false => simpa using f.void
    | true => exact f.void.concat_return
  | entry e =>
    have htab : '\t' ∉ Decimal.digits e.time.total := not_mem_digits (by decide) _
    have htrim : Text.trim (Decimal.digits e.time.total) = Decimal.digits e.time.total :=
      trim_of_unblank fun c hc => isBlank_of_isDigit (Decimal.digits_isDigit _ c hc)
    rw [Printed.chars, Content.chars, List.append_assoc, List.cons_append, ofLine?_tab htab, htrim,
      Decimal.read?_digits _ _ e.small, e.dropReturns_name, Option.map_some, String.ofList_toList]
    rfl

theorem unbroken_printed (p : Printed) : ∀ c ∈ p.chars, (c == '\n') = false := by
  obtain ⟨content, returned⟩ := p
  have hcontent : '\n' ∉ content.chars := by
    cases content with
    | filler f => exact f.unbroken
    | entry e =>
      have hdigits : '\n' ∉ Decimal.digits e.time.total := not_mem_digits (by decide) _
      simpa [Content.chars, hdigits] using e.unbroken
  have hprinted : '\n' ∉ Printed.chars ⟨content, returned⟩ := by
    cases returned <;> simpa [Printed.chars] using hcontent
  exact fun c hc => by simpa using ne_of_mem_of_not_mem hc hprinted

end Reading

section Output

/-- The pieces of an output are its lines, and an empty one where nothing follows a line feed or there is
nothing at all. -/
theorem pieces_output (lines : List Printed) (ended : Bool) :
    Text.pieces (· == '\n') (output lines ended) =
      lines.map Printed.chars ++ if ended || lines.isEmpty then [[]] else [] := by
  have hlines : ∀ w ∈ lines.map Printed.chars, ∀ c ∈ w, (c == '\n') = false := by
    intro w hw
    obtain ⟨p, -, rfl⟩ := List.mem_map.1 hw
    exact unbroken_printed p
  cases ended with
  | true =>
    have hjoin : output lines true = Text.join ['\n'] (lines.map Printed.chars ++ [[]]) := by
      simp [output, join_concat, List.flatMap_map]
    have hall : ∀ w ∈ lines.map Printed.chars ++ [[]], ∀ c ∈ w, (c == '\n') = false := by
      intro w hw
      rcases List.mem_append.1 hw with hw | hw
      · exact hlines w hw
      · simp [List.mem_singleton.1 hw]
    rw [hjoin, pieces_join rfl (by simp) hall]
    rfl
  | false =>
    cases lines with
    | nil => rfl
    | cons p lines =>
      have hjoin : output (p :: lines) false = Text.join ['\n'] ((p :: lines).map Printed.chars) := rfl
      rw [hjoin, pieces_join rfl (by simp) hlines]
      simp

/-- **What is read of an output**: the entries among so many of its first lines. -/
theorem parse_output (lines : List Printed) (ended : Bool) (limit : Nat) :
    parse (output lines ended) limit = (lines.take limit).filterMap fun p => p.content.time? := by
  -- An empty piece at the end holds no entry, so it does not matter whether the limit reaches it.
  have hempty : ∀ k, ((if ended || lines.isEmpty then [[]] else []).take k).filterMap ofLine? = [] := by
    intro k
    refine List.filterMap_eq_nil_iff.2 fun w hw => ?_
    have hmem := List.mem_of_mem_take hw
    split at hmem
    · rw [List.mem_singleton.1 hmem]
      rfl
    · cases hmem
  rw [parse, pieces_output, List.take_append, List.filterMap_append, hempty, List.append_nil,
    ← List.map_take, List.filterMap_map]
  exact List.filterMap_congr fun p _ => ofLine?_printed p

/-- A line that holds no entry, put in between, takes the place of one line under the limit. -/
theorem take_filler (front back : List Printed) (f : Filler) (returned : Bool) (limit : Nat) :
    ((front ++ ⟨.filler f, returned⟩ :: back).take limit).filterMap (fun p => p.content.time?) =
      ((front ++ back).take (if limit ≤ front.length then limit else limit - 1)).filterMap
        fun p => p.content.time? := by
  split
  · next hbefore => rw [List.take_append_of_le_length hbefore, List.take_append_of_le_length hbefore]
  · next hbehind =>
    obtain ⟨k, rfl⟩ : ∃ k, limit = front.length + (k + 1) := ⟨limit - front.length - 1, by omega⟩
    rw [List.take_length_add_append, List.take_succ_cons, Nat.add_succ_sub_one, List.take_length_add_append,
      List.filterMap_append, List.filterMap_append, List.filterMap_cons_none rfl]

/-- **The printed times are read back.** The lines of the output may hold entries and anything that is no
entry, in any order, with a return before the line feed or without. Under every limit, what is read are the
entries among so many of the first lines, in their order, each with its own number and name. A line that holds
no entry, wherever it is put in, gives no entry and changes none; it only counts as a line under the limit.
Under a larger limit more is read behind what is read under the smaller one. -/
theorem times_read_back (lines : List Printed) (ended : Bool) (limit : Nat) :
    parse (output lines ended) limit = (lines.take limit).filterMap (fun p => p.content.time?) ∧
      (∀ (front back : List Printed) (f : Filler) (returned : Bool),
        parse (output (front ++ ⟨.filler f, returned⟩ :: back) ended) limit =
          parse (output (front ++ back) ended) (if limit ≤ front.length then limit else limit - 1)) ∧
      ∀ more, parse (output lines ended) limit <+: parse (output lines ended) (limit + more) := by
  refine ⟨parse_output lines ended limit, fun front back f returned => ?_, fun more => ?_⟩
  · rw [parse_output, parse_output, take_filler]
  · exact parse_take (output lines ended) (Nat.le_add_right limit more)

-- The second line has no number, that of the third one is too large by one, the last one is past the limit.
example : parse "7\tann\tb\r\nx\tbob\n18446744073709551616\tcyd\r\n\n+08\t\n9\tdan".toList 5 =
    [⟨7, "ann\tb"⟩, ⟨8, ""⟩] := by
  decide +kernel

end Output

end ClientTimes
end VoiceRelay
