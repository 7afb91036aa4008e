import VoiceRelay.Proofs.CivilDays
import Mathlib.Data.List.Basic
import Mathlib.Data.List.GetD

/-!
# Time stamps

A time stamp is the text of a second: a weekday, a date and a time of day. It stands for this second
alone, before and after 1970 and in any year, with as many digits and whatever sign the year has. All its
fields but the last have a fixed width, so a reader cuts it at fixed columns and needs no other mark.

**Design.** `Moment.Valid` are the moments that a clock and a calendar can show. `read` cuts a text at its
columns; that it gives back every valid moment from its text is proved field by field, each by its width
and its value.

**Results.**

- `momentOf_valid`: a second is a valid moment.
- `padded_two`, `value_padded`: numerals that are filled up.
- `read_chars`: a valid moment is read back from its text.
- `stamps_identify`: what a stamp says of its second.
-/

namespace VoiceRelay

namespace Decimal

section Padding

theorem digits_small {n : Nat} (h : n < 10) : digits n = [digit n] := by
  rw [digits, dif_pos h]

theorem digits_two {n : Nat} (h : 10 ≤ n) (h' : n < 100) : digits n = [digit (n / 10), digit (n % 10)] := by
  rw [digits, dif_neg (by omega), digits_small (by omega)]
  rfl

theorem padded_two {n : Nat} (h : n < 100) : padded 2 n = [digit (n / 10), digit (n % 10)] := by
  unfold padded
  by_cases hsmall : n < 10
  · have hzero : n / 10 = 0 := by omega
    rw [digits_small hsmall, hzero, Nat.mod_eq_of_lt hsmall]
    rfl
  · rw [digits_two (by omega) h]
    rfl

theorem value_zeros (k : Nat) (cs : List Char) :
    value (List.replicate k '0' ++ cs) = value cs := by
  induction k with
  | zero => rfl
  | succ k ih => exact ih

theorem value_padded (width n : Nat) : value (padded width n) = n := by
  unfold padded
  rw [value_zeros, value_digits]

theorem padded_isDigit (width n : Nat) : ∀ c ∈ padded width n, isDigit c := by
  intro c hc
  rcases List.mem_append.1 hc with hc | hc
  · rw [List.eq_of_mem_replicate hc]
    rfl
  · exact digits_isDigit n c hc

end Padding

end Decimal

namespace Calendar

section Defs

/-- A moment that a clock and a calendar can show. -/
structure Moment.Valid (m : Moment) : Prop where
  date : m.date.Real
  hour : m.hour < 24
  minute : m.minute < 60
  second : m.second < 60
  weekday : m.weekday < 7

/-- Some columns of a text. -/
def column (cs : List Char) (first width : Nat) : List Char := (cs.drop first).take width

/-- The place of a name. -/
def placeOfName (names : List String) (cs : List Char) : Nat := names.idxOf (String.ofList cs)

/-- The number in a column that may be filled up with blanks. -/
def number (cs : List Char) : Nat := Decimal.value (cs.filter Decimal.isDigit)

/-- The year that a text spells, with its sign. -/
def readYear : List Char → Int
  | '-' :: cs => -number cs
  | cs => number cs

/-- The moment that a text shows, cut at its columns. -/
def read (cs : List Char) : Moment :=
  { date := ⟨readYear (cs.drop 27), placeOfName monthNames (column cs 4 3) + 1, number (column cs 8 2)⟩
    hour := number (column cs 11 2)
    minute := number (column cs 14 2)
    second := number (column cs 17 2)
    weekday := placeOfName weekdayNames (column cs 0 3) }

end Defs

section Seconds

theorem momentOf_valid (second : Int) : (momentOf second).Valid := by
  refine ⟨(dayNumber_dateOfDay _).1, ?_, ?_, ?_, ?_⟩
  all_goals
    simp only [momentOf]
    omega

/-- The days and the time of day of a second. -/
theorem secondOf_momentOf (second : Int) : secondOf (momentOf second) = second := by
  have hdays : dayNumber (momentOf second).date = second / 86400 := (dayNumber_dateOfDay _).2
  unfold secondOf
  rw [hdays]
  simp only [momentOf, Int.ofNat_eq_natCast]
  omega

end Seconds

section Fields

theorem number_of_digits {cs : List Char} (h : ∀ c ∈ cs, Decimal.isDigit c) :
    number cs = Decimal.value cs := by
  rw [number, List.filter_eq_self.2 h]

theorem number_digits (n : Nat) : number (Decimal.digits n) = n := by
  rw [number_of_digits (Decimal.digits_isDigit n), Decimal.value_digits]

theorem number_padded (width n : Nat) : number (Decimal.padded width n) = n := by
  rw [number_of_digits (Decimal.padded_isDigit width n), Decimal.value_padded]

/-- A clock field has two columns. -/
theorem clock_two {n : Nat} (h : n < 100) :
    ∃ a b, Decimal.padded 2 n = [a, b] ∧ number [a, b] = n := by
  have htwo := Decimal.padded_two h
  exact ⟨_, _, htwo, htwo ▸ number_padded 2 n⟩

/-- A day has two columns. -/
theorem dayText_two {day : Nat} (h : day < 100) :
    ∃ a b, dayText day = [a, b] ∧ number [a, b] = day := by
  unfold dayText
  split
  · next hsmall =>
    have hone := Decimal.digits_small hsmall
    have hblank : number (' ' :: Decimal.digits day) = number (Decimal.digits day) := rfl
    rw [number_digits, hone] at hblank
    exact ⟨' ', Decimal.digit day, by rw [hone], hblank⟩
  · next hbig =>
    have htwo := Decimal.digits_two (by omega) h
    exact ⟨_, _, htwo, htwo ▸ number_digits day⟩

/-- A name of a list of names of three letters has three columns, and it has its place. -/
theorem name_three {names : List String} (hthree : ∀ n ∈ names, n.toList.length = 3)
    (hnodup : names.Nodup) {i : Nat} (h : i < names.length) :
    ∃ a b c, (names.getD i "").toList = [a, b, c] ∧ placeOfName names [a, b, c] = i := by
  rw [List.getD_eq_getElem names "" h]
  obtain ⟨a, b, c, habc⟩ := List.length_eq_three.1 (hthree _ (List.getElem_mem h))
  refine ⟨a, b, c, habc, ?_⟩
  rw [placeOfName, ← habc, String.ofList_toList, hnodup.idxOf_getElem i h]

theorem readYear_of_digits {cs : List Char} (h : ∀ c ∈ cs, Decimal.isDigit c) :
    readYear cs = number cs := by
  unfold readYear
  split
  · next cs => exact absurd (h '-' List.mem_cons_self) (by decide)
  · rfl

/-- A year has as many columns as it takes, up to the end of the text. -/
theorem readYear_yearText (year : Int) : readYear (yearText year) = year := by
  unfold yearText
  split
  · next hnegative =>
    change -(number (Decimal.padded 4 year.natAbs) : Int) = year
    rw [number_padded]
    omega
  · split
    · next hlong =>
      change (number (Decimal.padded 4 year.natAbs) : Int) = year
      rw [number_padded]
      omega
    · next hshort =>
      rw [readYear_of_digits (Decimal.padded_isDigit 4 _), number_padded]
      omega

end Fields

section Stamps

theorem day_lt (d : Date) (h : d.Real) : d.day < 100 := by
  have hlast := h.day_le
  have hmost : daysInMonth d.year d.month ≤ 31 := by
    unfold daysInMonth
    repeat' split
    all_goals decide
  omega

/-- **A valid moment is read back from its text.** -/
theorem read_chars {m : Moment} (h : m.Valid) : read m.chars = m := by
  have hpos : m.date.month - 1 + 1 = m.date.month := Nat.sub_add_cancel h.date.month_pos
  have hmonth : m.date.month - 1 < monthNames.length :=
    Nat.lt_of_lt_of_le (Nat.sub_one_lt_of_lt h.date.month_pos) h.date.month_le
  have hseven : m.weekday < weekdayNames.length := h.weekday
  obtain ⟨w₁, w₂, w₃, hweekday, hw⟩ := name_three (by decide) (by decide) hseven
  obtain ⟨n₁, n₂, n₃, hname, hn⟩ := name_three (by decide) (by decide) hmonth
  obtain ⟨d₁, d₂, hday, hd⟩ := dayText_two (day_lt m.date h.date)
  obtain ⟨a₁, a₂, hhour, ha⟩ := clock_two (Nat.lt_trans h.hour (by decide))
  obtain ⟨b₁, b₂, hminute, hb⟩ := clock_two (Nat.lt_trans h.minute (by decide))
  obtain ⟨c₁, c₂, hsecond, hc⟩ := clock_two (Nat.lt_trans h.second (by decide))
  have htext : m.chars = [w₁, w₂, w₃, ' ', n₁, n₂, n₃, ' ', d₁, d₂, ' ', a₁, a₂, ':', b₁, b₂, ':',
      c₁, c₂] ++ " +00:00 ".toList ++ yearText m.date.year := by
    unfold Moment.chars
    rw [hweekday, hname, hday, hhour, hminute, hsecond]
    rfl
  calc read m.chars
      = ⟨⟨readYear (yearText m.date.year), placeOfName monthNames [n₁, n₂, n₃] + 1, number [d₁, d₂]⟩,
          number [a₁, a₂], number [b₁, b₂], number [c₁, c₂], placeOfName weekdayNames [w₁, w₂, w₃]⟩ := by
        rw [htext]
        rfl
    _ = m := by rw [readYear_yearText, hn, hpos, hd, ha, hb, hc, hw]

/-- **A time stamp identifies its second.** Cut at fixed columns, the text gives a moment that a clock and
a calendar can show, and it is the text of this moment and of no other one. The date lies a number of days
after 1 January 1970, or before it, and no other number of days; these days and the time of day make up the
second, and the weekday is as many days after a Thursday. No other second has the same text. -/
theorem stamps_identify (second : Int) :
    (∃ m : Moment, read (stamp second).toList = m ∧ m.Valid ∧ m.chars = (stamp second).toList ∧
      (∀ m' : Moment, m'.Valid → m'.chars = (stamp second).toList → m' = m) ∧
      ∃ days : Int, (∀ n, m.date.Lies n ↔ n = days) ∧
        second = days * 86400 + m.hour * 3600 + m.minute * 60 + m.second ∧
        (m.weekday : Int) = (4 + days) % 7) ∧
    ∀ other, stamp other = stamp second → other = second := by
  have hchars (s : Int) : (stamp s).toList = (momentOf s).chars := String.toList_ofList
  have hread (s : Int) : read (stamp s).toList = momentOf s := by
    rw [hchars, read_chars (momentOf_valid s)]
  refine ⟨⟨momentOf second, hread second, momentOf_valid second, (hchars second).symm,
    fun m' hm' htext => ?_, dayNumber (momentOf second).date,
    lies_iff (momentOf_valid second).date, ?_, ?_⟩, fun other hsame => ?_⟩
  · rw [← read_chars hm', htext, hread second]
  · have hsecond : secondOf (momentOf second) = second := secondOf_momentOf second
    unfold secondOf at hsecond
    rw [Int.ofNat_eq_natCast] at hsecond
    omega
  · have hdays : dayNumber (momentOf second).date = second / 86400 := (dayNumber_dateOfDay _).2
    rw [hdays]
    change (((second / 86400 + 4) % 7).toNat : Int) = _
    omega
  · rw [← secondOf_momentOf other, ← hread other, hsame, hread second, secondOf_momentOf]

-- The last second of the year before the year 0, and the first one of a year with six digits.
example : stamp (-62167219201) = "Fri Dec 31 23:59:59 +00:00 -0001" ∧
    stamp 3093527980800 = "Sat Jan  1 00:00:00 +00:00 +100000" := by
  decide +kernel

end Stamps

end Calendar
end VoiceRelay
