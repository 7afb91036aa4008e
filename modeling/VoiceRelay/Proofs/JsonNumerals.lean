import VoiceRelay.Proofs.JsonText
import Mathlib.Tactic.Choose

/-!
# Numerals in JSON texts

A numeral of the grammar is scanned to one number event, whether the number is in range or not, if what
follows it does not go on with it. In the text of a value it never does: a numeral is followed by a
comma, a closing bracket or nothing. So the compact text of any value, its numbers spelled in whatever
way the grammar allows, is scanned to the events of the value, but for what is read of the numbers.

**Design.** `Spelled` is the grammar of numerals, part by part. `Event.renumber` puts other events in the
place of numbers: with a word there the events walk along the grammar of `Event.next`, with the outcomes
of reading there they are what a scan gives.

**Results.**

- `numeral_spelled`: a numeral is scanned to its end.
- `follow_renumber`: the events of any value follow the grammar.
- `scan_compact`: the compact text of a value is scanned to its events.
- `spelled_text`: a number is written as a numeral.
-/

namespace VoiceRelay
namespace Json

section Defs

/-- One or more digits. -/
def Digits (ds : List Char) : Prop := ds ≠ [] ∧ ∀ d ∈ ds, Decimal.isDigit d = true

/-- The digits of a numeral in front of its point: no zero goes before others. -/
def Whole (ds : List Char) : Prop := Digits ds ∧ (ds.head? = some '0' → ds = ['0'])

/-- The fraction of a numeral, if it has one. -/
inductive FractionPart : List Char → Prop
  | none : FractionPart []
  | digits {ds : List Char} : Digits ds → FractionPart ('.' :: ds)

/-- The exponent of a numeral, if it has one. -/
inductive ExponentPart : List Char → Prop
  | none : ExponentPart []
  | plain {e : Char} {ds : List Char} : e = 'e' ∨ e = 'E' → Digits ds → ExponentPart (e :: ds)
  | signed {e s : Char} {ds : List Char} : e = 'e' ∨ e = 'E' → s = '+' ∨ s = '-' → Digits ds →
      ExponentPart (e :: s :: ds)

/-- The numerals without a sign. -/
inductive Unsigned : List Char → Prop
  | parts {whole fraction exponent : List Char} : Whole whole → FractionPart fraction →
      ExponentPart exponent → Unsigned (whole ++ (fraction ++ exponent))

/-- The numerals of the JSON grammar. -/
inductive Spelled : List Char → Prop
  | plain {cs : List Char} : Unsigned cs → Spelled cs
  | minus {cs : List Char} : Unsigned cs → Spelled ('-' :: cs)

/-- What follows a numeral does not go on with it. -/
def Ends (rest : List Char) : Prop :=
  ∀ c ∈ rest.head?, Decimal.isDigit c = false ∧ c ≠ '.' ∧ c ≠ 'e' ∧ c ≠ 'E'

/-- Puts other events in the place of numbers. -/
def Event.renumber (number : Number → Event) : Event → Event
  | .number (.ok n) => number n
  | e => e

/-- The events of a value, with other events in the place of its numbers. -/
def Value.eventsWith (number : Number → Event) (v : Value) : List Event :=
  v.events.map (Event.renumber number)

/-- The events of a member, with other events in the place of numbers. -/
def memberWith (number : Number → Event) (m : String × Value) : List Event :=
  .key (.ok m.1) :: .colon :: m.2.eventsWith number

/-- The event that stands for a number where events walk along the grammar. -/
def Event.place : Event := .word (.ok .null)

/-- How an event is written when numbers are spelled in some way. -/
def Event.charsWith (spell : Number → List Char) : Event → List Char
  | .number (.ok n) => spell n
  | e => e.chars

/-- The compact text of a value when numbers are spelled in some way. -/
def Value.compact (spell : Number → List Char) (v : Value) : String :=
  .ofList (v.events.flatMap (Event.charsWith spell))

end Defs

section Numerals

variable {cs ds rest whole fraction exponent : List Char}

theorem spanDigits_append (hds : ∀ d ∈ ds, Decimal.isDigit d = true)
    (hrest : ∀ c ∈ rest.head?, Decimal.isDigit c = false) : spanDigits (ds ++ rest) = (ds, rest) := by
  have htake : rest.takeWhile Decimal.isDigit = [] ∧ rest.dropWhile Decimal.isDigit = rest := by
    cases rest with
    | nil => exact ⟨rfl, rfl⟩
    | cons c rest => simp [hrest c rfl]
  rw [spanDigits, List.takeWhile_append_of_pos hds, List.dropWhile_append_of_pos hds, htake.1, htake.2,
    List.append_nil]

/-- The digits of an exponent and the end of the numeral. -/
theorem spanDigits_ends (hds : Digits ds) (hrest : Ends rest) : spanDigits (ds ++ rest) = (ds, rest) :=
  spanDigits_append hds.2 fun c hc => (hrest c hc).1

/-- **The exponent is read to its end.** -/
theorem numeralExponent_spelled (h : ExponentPart exponent) (n : Numeral) :
    ∃ n', ∀ rest, Ends rest → numeralExponent n (exponent ++ rest) = wholeNumeral n' rest := by
  cases h with
  | none =>
    refine ⟨n, fun rest hrest => ?_⟩
    cases rest with
    | nil => rfl
    | cons c rest =>
      obtain ⟨-, -, hsmall, hlarge⟩ := hrest c rfl
      simp [numeralExponent, hsmall, hlarge]
  | @plain e ds he hds =>
    refine ⟨{ n with exponent := some (Int.ofNat (Decimal.value ds)) }, fun rest hrest => ?_⟩
    obtain ⟨d, ds', rfl⟩ := List.exists_cons_of_ne_nil hds.1
    have hdigit := hds.2 d List.mem_cons_self
    have hplus : d ≠ '+' := by rintro rfl; cases hdigit
    have hminus : d ≠ '-' := by rintro rfl; cases hdigit
    have hspan := spanDigits_ends hds hrest
    rw [List.cons_append] at hspan
    simp [numeralExponent, he, hplus, hminus, hspan]
  | @signed e s ds he hs hds =>
    obtain ⟨d, ds', rfl⟩ := List.exists_cons_of_ne_nil hds.1
    rcases hs with rfl | rfl
    · refine ⟨{ n with exponent := some (Int.ofNat (Decimal.value (d :: ds'))) }, fun rest hrest => ?_⟩
      have hspan := spanDigits_ends hds hrest
      rw [List.cons_append] at hspan
      simp [numeralExponent, he, hspan]
    · refine ⟨{ n with exponent := some (-Int.ofNat (Decimal.value (d :: ds'))) }, fun rest hrest => ?_⟩
      have hspan := spanDigits_ends hds hrest
      rw [List.cons_append] at hspan
      simp [numeralExponent, he, hspan]

/-- An exponent and what follows do not go on with the digits in front of them, and begin with no
point. -/
theorem ExponentPart.ends (h : ExponentPart exponent) (hrest : Ends rest) :
    ∀ c ∈ (exponent ++ rest).head?, Decimal.isDigit c = false ∧ c ≠ '.' := by
  intro c hc
  cases h with
  | none =>
    obtain ⟨hdigit, hpoint, -⟩ := hrest c hc
    exact ⟨hdigit, hpoint⟩
  | plain he _ | signed he _ _ =>
    obtain rfl := Option.some.inj hc
    rcases he with rfl | rfl <;> decide

/-- **Fraction and exponent are read to their end.** -/
theorem numeralFraction_spelled (hfraction : FractionPart fraction) (hexponent : ExponentPart exponent)
    (n : Numeral) :
    ∃ n', ∀ rest, Ends rest →
      numeralFraction n (fraction ++ (exponent ++ rest)) = wholeNumeral n' rest := by
  cases hfraction with
  | none =>
    obtain ⟨n', hn'⟩ := numeralExponent_spelled hexponent n
    refine ⟨n', fun rest hrest => ?_⟩
    rw [List.nil_append, ← hn' rest hrest]
    rcases hcs : exponent ++ rest with _ | ⟨c, cs⟩
    · rfl
    · have hpoint := (hexponent.ends hrest c (by rw [hcs]; rfl)).2
      unfold numeralFraction
      split
      · next hc =>
        obtain ⟨rfl, -⟩ := List.cons.inj hc
        exact absurd rfl hpoint
      · rfl
  | @digits ds hds =>
    obtain ⟨n', hn'⟩ := numeralExponent_spelled hexponent { n with fraction := some ds }
    refine ⟨n', fun rest hrest => ?_⟩
    have hspan : spanDigits (ds ++ (exponent ++ rest)) = (ds, exponent ++ rest) :=
      spanDigits_append hds.2 fun c hc => (hexponent.ends hrest c hc).1
    obtain ⟨d, ds', rfl⟩ := List.exists_cons_of_ne_nil hds.1
    rw [← hn' rest hrest, List.cons_append, numeralFraction, hspan]

/-- A fraction, an exponent and what follows do not go on with the digits in front of them. -/
theorem FractionPart.ends (hfraction : FractionPart fraction) (hexponent : ExponentPart exponent)
    (hrest : Ends rest) :
    ∀ c ∈ (fraction ++ (exponent ++ rest)).head?, Decimal.isDigit c = false := by
  intro c hc
  cases hfraction with
  | none => exact (hexponent.ends hrest c hc).1
  | digits _ =>
    obtain rfl := Option.some.inj hc
    rfl

/-- **A numeral is scanned to its end**, whatever follows. -/
theorem numeral_spelled (negative : Bool) (h : Unsigned cs) :
    ∃ n, ∀ rest, Ends rest → numeral negative (cs ++ rest) = wholeNumeral n rest := by
  obtain ⟨⟨hdigits, hzero⟩, hfraction, hexponent⟩ := h
  rename_i whole fraction exponent
  obtain ⟨n, hn⟩ := numeralFraction_spelled hfraction hexponent ⟨negative, whole, none, none⟩
  refine ⟨n, fun rest hrest => ?_⟩
  have hends := hfraction.ends hexponent hrest
  rw [← hn rest hrest, List.append_assoc, List.append_assoc]
  obtain ⟨d, ds, rfl⟩ := List.exists_cons_of_ne_nil hdigits.1
  have hspan := spanDigits_append hdigits.2 hends
  rw [List.cons_append] at hspan ⊢
  by_cases hd : d = '0'
  · subst hd
    obtain rfl : ds = [] := (List.cons.inj (hzero rfl)).2
    have hnone : spanDigits ([] ++ (fraction ++ (exponent ++ rest))) =
        ([], fraction ++ (exponent ++ rest)) := spanDigits_append (by simp) hends
    rw [numeral, hnone]
  · rw [numeral.eq_2 _ _ (fun _ heq => hd (List.cons.inj heq).1), hspan]

/-- **A numeral is scanned to one number event.** -/
theorem valueMove_spelled (h : Spelled cs) :
    ∃ outcome, ∀ opened rest, Ends rest → ∃ c tail, cs ++ rest = c :: tail ∧ isBlank c = false ∧
      c ≠ ']' ∧ valueMove opened c tail =
        ([.number outcome], some (afterValue opened, opened, rest)) := by
  cases h with
  | plain hcs =>
    obtain ⟨n, hn⟩ := numeral_spelled false hcs
    obtain ⟨⟨hdigits, -⟩, -, -⟩ := hcs
    refine ⟨(wholeNumeral n []).value, fun opened rest hrest => ?_⟩
    rename_i whole fraction exponent
    obtain ⟨d, ds, rfl⟩ := List.exists_cons_of_ne_nil hdigits.1
    have hdigit := hdigits.2 d List.mem_cons_self
    have hother : ∀ c : Char, Decimal.isDigit c = false → d ≠ c := by
      rintro c hc rfl
      cases hc.symm.trans hdigit
    have hblank : isBlank d = false := by
      simp [isBlank, hother ' ' rfl, hother '\t' rfl, hother '\n' rfl, hother '\r' rfl]
    refine ⟨d, _, rfl, hblank, hother ']' rfl, ?_⟩
    have hread := hn rest hrest
    simp only [List.cons_append] at hread
    simp only [valueMove, if_neg (hother '"' rfl), if_neg (hother '[' rfl), if_neg (hother '\x7b' rfl),
      if_neg (hother 'n' rfl), if_neg (hother 't' rfl), if_neg (hother 'f' rfl),
      if_neg (hother '-' rfl), hdigit, if_true, List.append_eq, hread]
    rfl
  | minus hcs =>
    obtain ⟨n, hn⟩ := numeral_spelled true hcs
    refine ⟨(wholeNumeral n []).value, fun opened rest hrest => ?_⟩
    refine ⟨'-', _, rfl, rfl, by decide, ?_⟩
    have hread := hn rest hrest
    simp only [valueMove, List.append_eq, hread]
    rfl

end Numerals

section Events

/-- Induction over a value: over the items of an array and the members of an object. -/
@[elab_as_elim]
theorem Value.nested {motive : Value → Prop} (null : motive .null) (bool : ∀ b, motive (.bool b))
    (number : ∀ n, motive (.number n)) (text : ∀ s, motive (.text s))
    (array : ∀ items, (∀ v ∈ items, motive v) → motive (.array items))
    (object : ∀ members, (∀ m ∈ members, motive m.2) → motive (.object members)) (v : Value) :
    motive v := by
  match v with
  | .null => exact null
  | .bool b => exact bool b
  | .number n => exact number n
  | .text s => exact text s
  | .array items =>
    exact array items fun v _ => Value.nested null bool number text array object v
  | .object members =>
    refine object members fun m hm => ?_
    have hsize : sizeOf m.2 < sizeOf members := by
      have hmember := List.sizeOf_lt_of_mem hm
      have hpair : sizeOf m.2 < sizeOf m := by
        cases m
        simp only [Prod.mk.sizeOf_spec]
        omega
      exact hpair.trans hmember
    exact Value.nested null bool number text array object m.2

variable {number : Number → Event}

theorem map_separated (ess : List (List Event)) :
    (separated ess).map (Event.renumber number) =
      separated (ess.map (List.map (Event.renumber number))) := by
  induction ess with
  | nil => rfl
  | cons es ess ih =>
    cases ess with
    | nil => rfl
    | cons es' ess =>
      rw [separated_cons_cons, List.map_append, List.map_cons, ih]
      rfl

theorem eventsWith_array (items : List Value) :
    (Value.array items).eventsWith number =
      .openArray :: (separated (items.map (Value.eventsWith number)) ++ [.closeArray]) := by
  rw [Value.eventsWith, Value.events, itemEvents_eq, List.map_cons, List.map_append, map_separated,
    List.map_map]
  rfl

theorem eventsWith_object (members : List (String × Value)) :
    (Value.object members).eventsWith number =
      .openObject :: (separated (members.map (memberWith number)) ++ [.closeObject]) := by
  rw [Value.eventsWith, Value.events, memberEvents_eq, List.map_cons, List.map_append, map_separated,
    List.map_map]
  rfl

/-- **The events of any value follow the grammar** wherever a value may stand. -/
theorem follow_renumber (v : Value) {want : Want} {opened : List Bracket}
    (hwant : want = .value ∨ want = .itemOrClose) :
    follow (want, opened) (v.eventsWith fun _ => .place) = some (afterValue opened, opened) := by
  induction v using Value.nested generalizing want opened with
  | null | number n | text s =>
    simp [Value.eventsWith, Value.events, Event.renumber, Event.place, follow, Event.next, hwant]
  | bool b =>
    cases b <;> simp [Value.eventsWith, Value.events, Event.renumber, follow, Event.next, hwant]
  | array items ih =>
    rw [eventsWith_array, follow]
    simp only [Event.next, if_pos hwant, Option.bind_some]
    refine follow_enclosed (b := .array) fun es hes want hstart => ?_
    obtain ⟨v, hv, rfl⟩ := List.mem_map.1 hes
    exact ih v hv hstart
  | object members ih =>
    rw [eventsWith_object, follow]
    simp only [Event.next, if_pos hwant, Option.bind_some]
    refine follow_enclosed (b := .object) fun es hes want hstart => ?_
    obtain ⟨m, hm, rfl⟩ := List.mem_map.1 hes
    exact follow_member m.1 hstart (ih m hm (Or.inl rfl))

end Events

section Scanning

variable {want : Want} {opened : List Bracket} {spell : Number → List Char}
  {read : Number → Except Problem Number}

/-- What follows a whole value does not go on with a numeral. -/
theorem ends_follow {es : List Event} {place : Want × List Bracket}
    (h : follow (afterValue opened, opened) (es.map (Event.renumber fun _ => .place)) = some place) :
    Ends (es.flatMap (Event.charsWith spell)) := by
  have hends : ∀ {c : Char} {cs : List Char}, c = ',' ∨ c = ']' ∨ c = '\x7d' → Ends (c :: cs) := by
    intro c cs hc d hd
    obtain rfl := Option.some.inj hd
    rcases hc with rfl | rfl | rfl <;> decide
  have hvalue : afterValue opened ≠ .value ∧ afterValue opened ≠ .itemOrClose := by
    cases opened <;> exact ⟨nofun, nofun⟩
  have hkey : afterValue opened ≠ .key ∧ afterValue opened ≠ .keyOrClose := by
    cases opened <;> exact ⟨nofun, nofun⟩
  cases es with
  | nil => exact nofun
  | cons e es =>
    cases e with
    | comma => exact hends (Or.inl rfl)
    | closeArray => exact hends (Or.inr (Or.inl rfl))
    | closeObject => exact hends (Or.inr (Or.inr rfl))
    | word r | number r | string r | key r =>
      rcases r with p | a <;>
        simp [follow, Event.renumber, Event.place, Event.next, hvalue, hkey] at h
    | openArray | openObject | colon | noKey _ | fault _ =>
      cases opened <;> cases h

/-- An event that is no number stays as it is. -/
theorem Event.renumber_of_ne {e : Event} (h : ∀ n, e ≠ .number (.ok n)) (number : Number → Event) :
    e.renumber number = e := Event.renumber.eq_2 number e h

/-- An event that is no number is written in one way. -/
theorem Event.charsWith_of_ne {e : Event} (h : ∀ n, e ≠ .number (.ok n))
    (spell : Number → List Char) : e.charsWith spell = e.chars := Event.charsWith.eq_2 spell e h

/-- **Events with numerals are scanned**, each number to what is read of its numeral. -/
theorem scanFrom_numerals
    (hnumber : ∀ n opened rest, Ends rest → ∃ c tail, spell n ++ rest = c :: tail ∧
      isBlank c = false ∧ c ≠ ']' ∧
      valueMove opened c tail = ([.number (read n)], some (afterValue opened, opened, rest)))
    {es : List Event}
    (hf : follow (want, opened) (es.map (Event.renumber fun _ => .place)) = some (.nothing, [])) :
    scanFrom want opened (es.flatMap (Event.charsWith spell)) =
      es.map (Event.renumber (Event.number ∘ read)) := by
  have hskip : ∀ {text : List Char} {c : Char} {tail : List Char}, text = c :: tail →
      isBlank c = false → skipBlanks text = c :: tail := by
    rintro _ c tail rfl hblank
    simp [skipBlanks, hblank]
  induction es generalizing want opened with
  | nil =>
    cases hf
    rw [scanFrom_eq]
    rfl
  | cons e es ih =>
    rw [List.map_cons, follow] at hf
    obtain ⟨⟨want', opened'⟩, hnext, hrest⟩ := Option.bind_eq_some_iff.1 hf
    rw [List.flatMap_cons, List.map_cons, ← ih hrest]
    by_cases he : ∃ n, e = .number (.ok n)
    · obtain ⟨n, rfl⟩ := he
      simp only [Event.renumber, Event.place, Event.next] at hnext
      split at hnext
      · next hwant =>
        cases hnext
        obtain ⟨c, tail, hchars, hblank, hclose, hmove⟩ := hnumber n opened _ (ends_follow hrest)
        exact scanFrom_move (hskip hchars hblank)
          ((move_eq_valueMove hwant hclose tail).trans hmove)
      · cases hnext
    · have hne : ∀ n, e ≠ .number (.ok n) := fun n h => he ⟨n, h⟩
      rw [Event.renumber_of_ne hne] at hnext
      obtain ⟨c, tail, hchars, hblank, hmove⟩ := move_event hnext _
      rw [Event.renumber_of_ne hne, Event.charsWith_of_ne hne]
      exact scanFrom_move (hskip hchars hblank) hmove

/-- **The compact text of a value is scanned to its events**, however its numbers are spelled. -/
theorem scan_compact (hspell : ∀ n, Spelled (spell n)) :
    ∃ read : Number → Except Problem Number, ∀ v : Value,
      scan (v.compact spell) = v.eventsWith (Event.number ∘ read) := by
  choose read hread using fun n => valueMove_spelled (hspell n)
  refine ⟨read, fun v => ?_⟩
  rw [scan, Value.compact, String.toList_ofList]
  exact scanFrom_numerals hread (follow_renumber v (Or.inl rfl))

end Scanning

section Writing

theorem digits_digits (n : Nat) : Digits (Decimal.digits n) :=
  ⟨Decimal.digits_ne_nil n, Decimal.digits_isDigit n⟩

theorem whole_digits (n : Nat) : Whole (Decimal.digits n) := by
  refine ⟨digits_digits n, fun hzero => ?_⟩
  by_cases hn : n = 0
  · subst hn
    decide +kernel
  · exact absurd hzero (Decimal.digits_head n hn)

/-- A whole number and an exponent are a numeral. -/
theorem unsigned_whole (n : Nat) {exponent : List Char} (h : ExponentPart exponent) :
    Unsigned (Decimal.digits n ++ exponent) := .parts (whole_digits n) .none h

theorem spelled_integerText (i : Int) : Spelled (Number.integerText i) := by
  have hdigits : ∀ n, Unsigned (Decimal.digits n) := by
    intro n
    have hwhole := unsigned_whole n .none
    rwa [List.append_nil] at hwhole
  cases i with
  | ofNat n => exact .plain (hdigits n)
  | negSucc n => exact .minus (hdigits (n + 1))

/-- **A number is written as a numeral.** -/
theorem spelled_text (n : Number) : Spelled n.text := by
  cases n with
  | integer i => exact spelled_integerText i
  | decimal negative s e =>
    have hexponent : ExponentPart ('e' :: Number.integerText e) := by
      cases e with
      | ofNat m => exact .plain (Or.inl rfl) (digits_digits m)
      | negSucc m => exact .signed (Or.inl rfl) (Or.inr rfl) (digits_digits (m + 1))
    cases negative with
    | false => exact .plain (unsigned_whole s hexponent)
    | true => exact .minus (unsigned_whole s hexponent)

/-- With the numbers as they are written, the compact text is the text of the value. -/
theorem compact_text (v : Value) : v.compact Number.text = v.render := by
  have hchars : Event.charsWith Number.text = Event.chars := by
    funext e
    cases e with
    | number r => cases r <;> rfl
    | word _ | string _ | openArray | closeArray | openObject | closeObject | comma | key _
    | noKey _ | colon | fault _ => rfl
  rw [Value.compact, Value.render, chars_events, hchars]

end Writing

end Json
end VoiceRelay
