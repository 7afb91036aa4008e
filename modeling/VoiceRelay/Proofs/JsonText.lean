import VoiceRelay.Json.Value
import Mathlib.Data.List.TakeWhile

/-!
# Written JSON and its events

The compact text of a value is the texts of its events, one after the other. Whatever blanks are put
before, between and after them, a scan gives these events back. Every character of a string
survives: one that may not stand in a text is written as an escape that stands for it.

**Design.** `Written` tells the three ways in which a character stands in quotes. `Event.next` is
the grammar event by event, and `follow` lets some events walk along it. `Value.Plain` are the
values that are read back as they were written: they hold no number, are not nested too deep, and
name no member twice where the later one would replace the earlier.

**Results.**

- `quoted_flatMap`: what is written in quotes is read back.
- `chars_events`: the text of a value is the text of its events.
- `follow_events`: the events of a value follow the grammar.
- `scan_spaced`: a text with blanks between the events is scanned to the events.
- `render_printable`: no control character stands in the compact text.
-/

namespace VoiceRelay
namespace Json

section Defs

/-- The letters of a word. -/
def Word.letters : Word → List Char
  | .null => "null".toList
  | .true => "true".toList
  | .false => "false".toList

/-- How an event is written; a problem is not written at all. -/
def Event.chars : Event → List Char
  | .word (.ok w) => w.letters
  | .number (.ok n) => n.text
  | .string (.ok s) | .key (.ok s) => quote s
  | .openArray => ['[']
  | .closeArray => [']']
  | .openObject => ['\x7b']
  | .closeObject => ['\x7d']
  | .comma => [',']
  | .colon => [':']
  | _ => []

/-- Some groups of events, separated by commas. -/
def separated : List (List Event) → List Event
  | [] => []
  | [es] => es
  | es :: ess => es ++ .comma :: separated ess

mutual

/-- The events of a value. -/
def Value.events : Value → List Event
  | .null => [.word (.ok .null)]
  | .bool true => [.word (.ok .true)]
  | .bool false => [.word (.ok .false)]
  | .number n => [.number (.ok n)]
  | .text s => [.string (.ok s)]
  | .array items => .openArray :: (separated (itemEvents items) ++ [.closeArray])
  | .object members => .openObject :: (separated (memberEvents members) ++ [.closeObject])

/-- The events of each of some items. -/
def itemEvents : List Value → List (List Event)
  | [] => []
  | v :: vs => v.events :: itemEvents vs

/-- The events of each of some members. -/
def memberEvents : List (String × Value) → List (List Event)
  | [] => []
  | (k, v) :: ms => (.key (.ok k) :: .colon :: v.events) :: memberEvents ms

end

/-- What the grammar allows after an event that it allows; numbers are left out, since where they
end depends on what follows. -/
def Event.next (want : Want) (opened : List Bracket) : Event → Option (Want × List Bracket)
  | .word (.ok _) | .string (.ok _) =>
    if want = .value ∨ want = .itemOrClose then some (afterValue opened, opened) else none
  | .openArray =>
    if want = .value ∨ want = .itemOrClose then some (.itemOrClose, .array :: opened) else none
  | .openObject =>
    if want = .value ∨ want = .itemOrClose then some (.keyOrClose, .object :: opened) else none
  | .closeArray =>
    match want, opened with
    | .itemOrClose, .array :: outer | .more, .array :: outer => some (afterValue outer, outer)
    | _, _ => none
  | .closeObject =>
    match want, opened with
    | .keyOrClose, .object :: outer | .more, .object :: outer => some (afterValue outer, outer)
    | _, _ => none
  | .comma =>
    match want, opened with
    | .more, .array :: _ => some (.value, opened)
    | .more, .object :: _ => some (.key, opened)
    | _, _ => none
  | .key (.ok _) => if want = .key ∨ want = .keyOrClose then some (.colon, opened) else none
  | .colon => if want = .colon then some (.value, opened) else none
  | _ => none

/-- Where some events lead that follow the grammar. -/
def follow (place : Want × List Bracket) : List Event → Option (Want × List Bracket)
  | [] => some place
  | e :: es => (e.next place.1 place.2).bind fun place => follow place es

/-- A text with blanks before, between and after the texts of some events. -/
inductive Spaced : List Event → List Char → Prop
  | ends {gap : List Char} : (∀ c ∈ gap, isBlank c = true) → Spaced [] gap
  | event {gap text : List Char} {e : Event} {es : List Event} : (∀ c ∈ gap, isBlank c = true) →
      Spaced es text → Spaced (e :: es) (gap ++ e.chars ++ text)

/-- How a character stands in quotes: as a letter behind a backslash, as a code, or as it is. -/
inductive Written (c : Char) : List Char → Prop
  | short {e : Char} : e ≠ 'u' → escaped? e = some c → 0x20 ≤ e.toNat → Written c ['\\', e]
  | code : c.toNat < 0x20 →
      Written c ['\\', 'u', '0', '0', hexDigit (c.toNat / 16), hexDigit (c.toNat % 16)]
  | plain : c ≠ '"' → c ≠ '\\' → 0x20 ≤ c.toNat → Written c [c]

/-- A value without numbers that opens at most `n` brackets inside each other, and names no member
twice where the later one replaces the earlier. -/
inductive Value.Plain (r : Repeats) : Nat → Value → Prop
  | null (n : Nat) : Plain r n .null
  | bool (n : Nat) (b : Bool) : Plain r n (.bool b)
  | text (n : Nat) (s : String) : Plain r n (.text s)
  | array {n : Nat} {items : List Value} : (∀ v ∈ items, Plain r n v) →
      Plain r (n + 1) (.array items)
  | object {n : Nat} {members : List (String × Value)} : (∀ m ∈ members, Plain r n m.2) →
      (r = .replacing → (members.map Prod.fst).Nodup) → Plain r (n + 1) (.object members)

end Defs

section Strings

theorem hex4?_hexDigit :
    ∀ n < 32, hex4? '0' '0' (hexDigit (n / 16)) (hexDigit (n % 16)) = some n := by decide

/-- A code unit below the pairs is a character. -/
theorem Quoting.unit_toNat {q : Quoting} (hq : q.high = none) {c : Char} (hc : c.toNat < 0x20) :
    q.unit c.toNat = q.push c := by
  have hhigh : isHigh c.toNat = false := by
    simp only [isHigh, Bool.and_eq_false_iff, decide_eq_false_iff_not]
    omega
  have hlow : isLow c.toNat = false := by
    simp only [isLow, Bool.and_eq_false_iff, decide_eq_false_iff_not]
    omega
  simp [Quoting.unit, hq, hhigh, hlow, Char.ofNat_toNat]

/-- A character is written in one of three ways. -/
theorem written_quoteChar (c : Char) : Written c (quoteChar c) := by
  unfold quoteChar
  split
  · next h => subst h; exact .short (by decide) rfl (by decide)
  split
  · next h => subst h; exact .short (by decide) rfl (by decide)
  split
  · next h => subst h; exact .short (by decide) rfl (by decide)
  split
  · next h => subst h; exact .short (by decide) rfl (by decide)
  split
  · next h => subst h; exact .short (by decide) rfl (by decide)
  split
  · next h => subst h; exact .short (by decide) rfl (by decide)
  split
  · next h => subst h; exact .short (by decide) rfl (by decide)
  split
  · next h => exact .code h
  · next hquote hslash _ _ _ _ _ hcontrol => exact .plain hquote hslash (Nat.not_lt.1 hcontrol)

/-- **A character that was written is read back.** -/
theorem quoted_written {q : Quoting} (hq : q.high = none) {c : Char} {cs : List Char}
    (h : Written c cs) (rest : List Char) : quoted q (cs ++ rest) = quoted (q.push c) rest := by
  cases h with
  | @short e hcode he _ =>
    rw [List.cons_append, List.singleton_append,
      quoted.eq_5 q e rest (fun _ _ _ _ _ h => absurd h hcode) hcode, he]
  | code hcontrol =>
    rw [List.cons_append, List.cons_append, List.cons_append, List.cons_append, List.cons_append,
      List.singleton_append, quoted, hex4?_hexDigit c.toNat hcontrol]
    exact congrArg (quoted · rest) (Quoting.unit_toNat hq hcontrol)
  | plain hquote hslash hcontrol =>
    rw [List.singleton_append, quoted.eq_7 q c rest hquote (fun _ _ _ _ _ h => absurd h hslash)
      (fun _ h => absurd h hslash) (fun _ _ h => absurd h hslash) (fun h => absurd h hslash),
      if_neg (Nat.not_lt.2 hcontrol)]

theorem Quoting.push_high {q : Quoting} (c : Char) : (q.push c).high = none := rfl

/-- **What is written in quotes is read back.** -/
theorem quoted_flatMap (cs rest : List Char) {q : Quoting} (hq : q.high = none) :
    quoted q (cs.flatMap quoteChar ++ '"' :: rest) =
      (⟨cs.reverse ++ q.done, none, q.flawed⟩ : Quoting).close rest := by
  induction cs generalizing q with
  | nil =>
    obtain ⟨done, high, flawed⟩ := q
    simp only at hq
    subst hq
    simp [quoted]
  | cons c cs ih =>
    rw [List.flatMap_cons, List.append_assoc, quoted_written hq (written_quoteChar c),
      ih (q.push_high c)]
    simp [Quoting.push, hq]

theorem quoted_quote (s : String) (rest : List Char) :
    quoted ⟨[], none, false⟩ (s.toList.flatMap quoteChar ++ '"' :: rest) = ⟨.ok s, .ok rest⟩ := by
  rw [quoted_flatMap _ _ rfl]
  simp [Quoting.close]

theorem hexDigit_printable : ∀ n < 16, 0x20 ≤ (hexDigit n).toNat := by decide

/-- No control character stands in quotes. -/
theorem Written.printable {c d : Char} {cs : List Char} (h : Written c cs) (hd : d ∈ cs) :
    0x20 ≤ d.toNat := by
  cases h with
  | short _ _ he =>
    simp only [List.mem_cons, List.not_mem_nil, or_false] at hd
    rcases hd with rfl | rfl
    · decide
    · exact he
  | code hcontrol =>
    have hhigh := hexDigit_printable (c.toNat / 16) (by omega)
    have hlow := hexDigit_printable (c.toNat % 16) (by omega)
    simp only [List.mem_cons, List.not_mem_nil, or_false] at hd
    rcases hd with rfl | rfl | rfl | rfl | rfl | rfl
    all_goals first | assumption | decide
  | plain _ _ hcontrol =>
    rw [List.mem_singleton.1 hd]
    exact hcontrol

theorem quote_printable {s : String} {d : Char} (h : d ∈ quote s) : 0x20 ≤ d.toNat := by
  simp only [quote, List.mem_cons, List.mem_append, List.mem_flatMap, List.not_mem_nil,
    or_false] at h
  rcases h with rfl | ⟨c, -, hd⟩ | rfl
  · decide
  · exact (written_quoteChar c).printable hd
  · decide

end Strings

section Events

theorem separated_cons_cons (es es' : List Event) (ess : List (List Event)) :
    separated (es :: es' :: ess) = es ++ .comma :: separated (es' :: ess) := rfl

mutual

/-- **The text of a value is the text of its events.** -/
theorem chars_events : (v : Value) → v.chars = v.events.flatMap Event.chars
  | .null | .bool true | .bool false | .number _ | .text _ => by
    simp [Value.chars, Value.events, Event.chars, Word.letters]
  | .array items => by
    simp [Value.chars, Value.events, Event.chars, itemChars_events items]
  | .object members => by
    simp [Value.chars, Value.events, Event.chars, memberChars_events members]

theorem itemChars_events : (vs : List Value) →
    itemChars vs = (separated (itemEvents vs)).flatMap Event.chars
  | [] => rfl
  | [v] => by simp [itemChars, itemEvents, separated, chars_events v]
  | v :: w :: vs => by
    have hrest := itemChars_events (w :: vs)
    rw [itemEvents] at hrest
    simp [itemChars, itemEvents, separated_cons_cons, Event.chars, chars_events v, hrest]

theorem memberChars_events : (ms : List (String × Value)) →
    memberChars ms = (separated (memberEvents ms)).flatMap Event.chars
  | [] => rfl
  | [(k, v)] => by simp [memberChars, memberEvents, separated, Event.chars, chars_events v]
  | (k, v) :: (k', w) :: ms => by
    have hrest := memberChars_events ((k', w) :: ms)
    rw [memberEvents] at hrest
    simp [memberChars, memberEvents, separated_cons_cons, Event.chars, chars_events v, hrest]

end

theorem itemEvents_eq (vs : List Value) : itemEvents vs = vs.map Value.events := by
  induction vs with
  | nil => rfl
  | cons v vs ih => rw [itemEvents, ih, List.map_cons]

theorem memberEvents_eq (ms : List (String × Value)) :
    memberEvents ms = ms.map fun m => .key (.ok m.1) :: .colon :: m.2.events := by
  induction ms with
  | nil => rfl
  | cons m ms ih => rw [memberEvents, ih, List.map_cons]

end Events

section Grammar

variable {want : Want} {opened outer : List Bracket} {b : Bracket} {es : List Event}

theorem follow_append (place : Want × List Bracket) (es es' : List Event) :
    follow place (es ++ es') = (follow place es).bind fun place => follow place es' := by
  induction es generalizing place with
  | nil => rfl
  | cons e es ih =>
    simp only [List.cons_append, follow]
    cases e.next place.1 place.2 with
    | none => rfl
    | some place => exact ih place

/-- What is wanted where a part of an open bracket may begin. -/
def Bracket.starts : Bracket → Want → Prop
  | .array, want => want = .value ∨ want = .itemOrClose
  | .object, want => want = .key ∨ want = .keyOrClose

/-- What is wanted behind an opening bracket. -/
def Bracket.first : Bracket → Want
  | .array => .itemOrClose
  | .object => .keyOrClose

/-- The event that closes a bracket. -/
def Bracket.close : Bracket → Event
  | .array => .closeArray
  | .object => .closeObject

/-- After a comma another part begins. -/
theorem comma_starts (b : Bracket) (outer : List Bracket) :
    ∃ want, Event.comma.next .more (b :: outer) = some (want, b :: outer) ∧ b.starts want := by
  cases b with
  | array => exact ⟨.value, rfl, Or.inl rfl⟩
  | object => exact ⟨.key, rfl, Or.inl rfl⟩

/-- Parts of a bracket with commas between them follow the grammar if each of them does. -/
theorem follow_separated {ess : List (List Event)} (hne : ess ≠ [])
    (hparts : ∀ es ∈ ess, ∀ want, b.starts want →
      follow (want, b :: outer) es = some (.more, b :: outer)) (hwant : b.starts want) :
    follow (want, b :: outer) (separated ess) = some (.more, b :: outer) := by
  induction ess generalizing want with
  | nil => exact absurd rfl hne
  | cons es ess ih =>
    cases ess with
    | nil => exact hparts es List.mem_cons_self want hwant
    | cons es' ess =>
      obtain ⟨next, hcomma, hnext⟩ := comma_starts b outer
      have hrest := ih (List.cons_ne_nil es' ess)
        (fun es hes => hparts es (List.mem_cons_of_mem _ hes)) hnext
      rw [separated_cons_cons, follow_append, hparts es List.mem_cons_self want hwant]
      simp only [Option.bind_some, follow, hcomma, hrest]

/-- Parts of a bracket, and the bracket closed behind them, follow the grammar if each part does. -/
theorem follow_enclosed {ess : List (List Event)}
    (hparts : ∀ es ∈ ess, ∀ want, b.starts want →
      follow (want, b :: outer) es = some (.more, b :: outer)) :
    follow (b.first, b :: outer) (separated ess ++ [b.close]) = some (afterValue outer, outer) := by
  rcases ess with _ | ⟨es, ess⟩
  · cases b <;> rfl
  · have hfirst : b.starts b.first := by cases b <;> exact Or.inr rfl
    rw [follow_append, follow_separated (List.cons_ne_nil es ess) hparts hfirst]
    cases b <;> rfl

/-- A member follows the grammar if its value does. -/
theorem follow_member (k : String) (hwant : Bracket.object.starts want)
    (h : follow (.value, .object :: outer) es = some (.more, .object :: outer)) :
    follow (want, .object :: outer) (.key (.ok k) :: .colon :: es) =
      some (.more, .object :: outer) := by
  have hkey : (Event.key (.ok k)).next want (.object :: outer) =
      some (.colon, .object :: outer) := if_pos hwant
  simp only [follow, hkey, Option.bind_some]
  exact h

/-- The events of a value follow the grammar wherever a value may stand. -/
theorem follow_events {r : Repeats} {n : Nat} {v : Value} (h : v.Plain r n)
    (hwant : want = .value ∨ want = .itemOrClose) :
    follow (want, opened) v.events = some (afterValue opened, opened) := by
  induction h generalizing want opened with
  | null n | text n s => simp [Value.events, follow, Event.next, hwant]
  | bool n b => cases b <;> simp [Value.events, follow, Event.next, hwant]
  | @array n items _ ih =>
    rw [Value.events, follow]
    simp only [Event.next, if_pos hwant, Option.bind_some]
    refine follow_enclosed (b := .array) fun es hes want hstart => ?_
    rw [itemEvents_eq] at hes
    obtain ⟨w, hw, rfl⟩ := List.mem_map.1 hes
    exact ih w hw hstart
  | @object n members _ _ ih =>
    rw [Value.events, follow]
    simp only [Event.next, if_pos hwant, Option.bind_some]
    refine follow_enclosed (b := .object) fun es hes want hstart => ?_
    rw [memberEvents_eq] at hes
    obtain ⟨w, hw, rfl⟩ := List.mem_map.1 hes
    exact follow_member w.1 hstart (ih w hw (Or.inl rfl))

end Grammar

section Scanning

variable {want want' : Want} {opened opened' : List Bracket} {e : Event} {es : List Event}
  {text : List Char}

theorem quote_append (s : String) (rest : List Char) :
    quote s ++ rest = '"' :: (s.toList.flatMap quoteChar ++ '"' :: rest) := by
  simp [quote]

/-- The first event of a value is read from its text. -/
theorem valueMove_event (h : e.next .value opened = some (want', opened')) (rest : List Char) :
    ∃ c cs, e.chars ++ rest = c :: cs ∧ isBlank c = false ∧ c ≠ ']' ∧
      valueMove opened c cs = ([e], some (want', opened', rest)) := by
  cases e with
  | word result =>
    rcases result with p | w
    · cases h
    · cases h
      cases w with
      | null => exact ⟨'n', ['u', 'l', 'l'] ++ rest, rfl, rfl, by decide, rfl⟩
      | true => exact ⟨'t', ['r', 'u', 'e'] ++ rest, rfl, rfl, by decide, rfl⟩
      | false => exact ⟨'f', ['a', 'l', 's', 'e'] ++ rest, rfl, rfl, by decide, rfl⟩
  | string result =>
    rcases result with p | s
    · cases h
    · cases h
      refine ⟨'"', _, quote_append s rest, rfl, by decide, ?_⟩
      simp only [valueMove, if_true, quoted_quote, scalarMove]
  | openArray =>
    cases h
    exact ⟨'[', rest, rfl, rfl, by decide, rfl⟩
  | openObject =>
    cases h
    exact ⟨'\x7b', rest, rfl, rfl, by decide, rfl⟩
  | key result => rcases result with p | s <;> cases h
  | number _ | closeArray | closeObject | comma | noKey _ | colon | fault _ => cases h

/-- A key is read from its text. -/
theorem keyMove_event (s : String) (opened : List Bracket) (rest : List Char) :
    ∃ c cs, quote s ++ rest = c :: cs ∧ isBlank c = false ∧ c ≠ '\x7d' ∧
      keyMove opened c cs = ([.key (.ok s)], some (.colon, opened, rest)) := by
  refine ⟨'"', _, quote_append s rest, rfl, by decide, ?_⟩
  simp only [keyMove, if_true, quoted_quote, scalarMove]

/-- Where an item may stand, a value is read as it is where only a value may. -/
theorem move_eq_valueMove (hwant : want = .value ∨ want = .itemOrClose) {c : Char} (hc : c ≠ ']')
    (cs : List Char) : move want opened c cs = valueMove opened c cs := by
  rcases hwant with rfl | rfl
  · rfl
  · simp only [move, if_neg hc]

theorem move_value (hwant : want = .value ∨ want = .itemOrClose)
    (h : e.next .value opened = some (want', opened')) (rest : List Char) :
    ∃ c cs, e.chars ++ rest = c :: cs ∧ isBlank c = false ∧
      move want opened c cs = ([e], some (want', opened', rest)) := by
  obtain ⟨c, cs, hchars, hblank, hclose, hmove⟩ := valueMove_event h rest
  exact ⟨c, cs, hchars, hblank, (move_eq_valueMove hwant hclose cs).trans hmove⟩

/-- **An event that the grammar allows is read from its text.** -/
theorem move_event (h : e.next want opened = some (want', opened')) (rest : List Char) :
    ∃ c cs, e.chars ++ rest = c :: cs ∧ isBlank c = false ∧
      move want opened c cs = ([e], some (want', opened', rest)) := by
  cases e with
  | word result | string result =>
    rcases result with p | w
    · cases h
    · simp only [Event.next] at h
      split at h
      · next hwant =>
        cases h
        exact move_value hwant rfl rest
      · cases h
  | openArray | openObject =>
    simp only [Event.next] at h
    split at h
    · next hwant =>
      cases h
      exact move_value hwant rfl rest
    · cases h
  | closeArray | closeObject | comma =>
    refine ⟨_, rest, rfl, rfl, ?_⟩
    simp only [Event.next] at h
    split at h
    · cases h; rfl
    · cases h; rfl
    · cases h
  | key result =>
    rcases result with p | s
    · cases h
    · simp only [Event.next] at h
      split at h
      · next hwant =>
        cases h
        obtain ⟨c, cs, hchars, hblank, hclose, hmove⟩ := keyMove_event s opened rest
        refine ⟨c, cs, hchars, hblank, ?_⟩
        rcases hwant with rfl | rfl
        · exact hmove
        · simp only [move, if_neg hclose]
          exact hmove
      · cases h
  | colon =>
    refine ⟨':', rest, rfl, rfl, ?_⟩
    simp only [Event.next] at h
    split at h
    · next hwant =>
      cases h
      subst hwant
      rfl
    · cases h
  | number _ | noKey _ | fault _ => cases h

theorem skipBlanks_gap {gap : List Char} (h : ∀ c ∈ gap, isBlank c = true) (cs : List Char) :
    skipBlanks (gap ++ cs) = skipBlanks cs := List.dropWhile_append_of_pos h

/-- A move that gives one event, and a scan of what is left. -/
theorem scanFrom_move {c : Char} {cs rest : List Char} (hskip : skipBlanks text = c :: cs)
    (hmove : move want opened c cs = ([e], some (want', opened', rest))) :
    scanFrom want opened text = e :: scanFrom want' opened' rest := by
  rw [scanFrom_eq, hskip]
  simp only [hmove, List.singleton_append]

/-- **A text with blanks between the events is scanned to the events.** -/
theorem scanFrom_spaced (hs : Spaced es text)
    (hf : follow (want, opened) es = some (.nothing, [])) : scanFrom want opened text = es := by
  induction hs generalizing want opened with
  | @ends gap hgap =>
    cases hf
    have hnone : skipBlanks gap = [] := List.dropWhile_eq_nil_iff.2 hgap
    rw [scanFrom_eq, hnone]
    rfl
  | @event gap text e es hgap _ ih =>
    simp only [follow] at hf
    rcases hnext : e.next want opened with _ | ⟨want', opened'⟩
    · rw [hnext] at hf
      cases hf
    · rw [hnext] at hf
      obtain ⟨c, cs, hchars, hblank, hmove⟩ := move_event hnext text
      have hskip : skipBlanks (gap ++ e.chars ++ text) = c :: cs := by
        rw [List.append_assoc, skipBlanks_gap hgap, hchars]
        simp [skipBlanks, hblank]
      rw [scanFrom_move hskip hmove, ih hf]

/-- The text without any blank between the events. -/
theorem spaced_flatMap (es : List Event) : Spaced es (es.flatMap Event.chars) := by
  induction es with
  | nil => exact .ends (by simp)
  | cons e es ih =>
    have hgap : ∀ c ∈ ([] : List Char), isBlank c = true := by simp
    exact .event hgap ih

/-- An event that the grammar allows is written without control characters. -/
theorem next_printable (h : e.next want opened = some (want', opened')) {d : Char}
    (hd : d ∈ e.chars) : 0x20 ≤ d.toNat := by
  have hword : ∀ w : Word, w.letters.all (fun d => decide (0x20 ≤ d.toNat)) = true := by
    intro w
    cases w <;> rfl
  cases e with
  | word result =>
    rcases result with p | w
    · cases h
    · simpa using List.all_eq_true.1 (hword w) d hd
  | string result | key result =>
    rcases result with p | s
    · cases h
    · exact quote_printable hd
  | openArray | closeArray | openObject | closeObject | comma | colon =>
    rw [List.mem_singleton.1 hd]
    decide
  | number _ | noKey _ | fault _ => cases h

/-- **No control character stands in the text of events that follow the grammar.** -/
theorem printable {place place' : Want × List Bracket} (hf : follow place es = some place')
    {d : Char} (hd : d ∈ es.flatMap Event.chars) : 0x20 ≤ d.toNat := by
  induction es generalizing place with
  | nil => cases hd
  | cons e es ih =>
    simp only [follow] at hf
    rcases hnext : e.next place.1 place.2 with _ | next
    · rw [hnext] at hf
      cases hf
    · rw [hnext] at hf
      rcases List.mem_append.1 hd with hd | hd
      · exact next_printable hnext hd
      · exact ih hf hd

/-- **A value is scanned to its events**, whatever blanks stand between them. -/
theorem scan_spaced {r : Repeats} {n : Nat} {v : Value} {text : String} (h : v.Plain r n)
    (hs : Spaced v.events text.toList) : scan text = v.events :=
  scanFrom_spaced hs (follow_events h (Or.inl rfl))

/-- The compact text of a value is one of these texts. -/
theorem spaced_render (v : Value) : Spaced v.events v.render.toList := by
  rw [Value.render, String.toList_ofList, chars_events]
  exact spaced_flatMap v.events

/-- No control character stands in the compact text of a value. -/
theorem render_printable {r : Repeats} {n : Nat} {v : Value} (h : v.Plain r n) {c : Char}
    (hc : c ∈ v.render.toList) : 0x20 ≤ c.toNat := by
  rw [Value.render, String.toList_ofList, chars_events] at hc
  have hwalk : follow (.value, []) v.events = some (afterValue [], []) :=
    follow_events h (Or.inl rfl)
  exact printable hwalk hc

end Scanning

end Json
end VoiceRelay
