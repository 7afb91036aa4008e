import VoiceRelay.Journal.Calendar
import Mathlib.Logic.Function.Iterate
import Mathlib.Tactic.IntervalCases

/-!
# Days and dates

The date of a day is computed by divisions within a cycle of 400 years. What it should be can be said
without any of them: 1 January 1970 is the day with number zero, and one day later is the next day of the
month, or the first day of the next month, or the first day of the next year. The two agree in both
directions of time, so the number of a day is its distance from 1 January 1970 in days, and every date
that the calendar has is the date of exactly one day.

**Design.** `Date.next` is the day after, by the lengths of the months. The proofs go through the place of
a date in its cycle: `ofMarch` is the date with a given year of the cycle, a month from March on and a day.
Leap days come last there, so that numbers, dates and the day after are each given by one equation.

**Results.**

- `yearOfCycle_add`: the year of a day of a cycle.
- `dayNumber_dateOfDay`, `dateOfDay_dayNumber`: dates and numbers determine each other.
- `next_real`: the day after has the next number.
- `lies_iff`: the number of a date is its distance from 1 January 1970.
-/

namespace VoiceRelay
namespace Calendar

section Defs

/-- A date that there is. -/
structure Date.Real (d : Date) : Prop where
  month_pos : 1 ≤ d.month
  month_le : d.month ≤ 12
  day_pos : 1 ≤ d.day
  day_le : d.day ≤ daysInMonth d.year d.month

/-- The day after. -/
def Date.next (d : Date) : Date :=
  if d.day < daysInMonth d.year d.month then { d with day := d.day + 1 }
  else if d.month < 12 then ⟨d.year, d.month + 1, 1⟩
  else ⟨d.year + 1, 1, 1⟩

/-- The date that days are counted from, a Thursday. -/
def epoch : Date := ⟨1970, 1, 1⟩

/-- A date lies so many days after 1 January 1970, or before it if the number is negative: counting day
after day leads from the earlier one of the two to the later one. -/
def Date.Lies (d : Date) (days : Int) : Prop :=
  Date.next^[days.toNat] epoch = Date.next^[(-days).toNat] d

/-- The days of a cycle before the `y`-th year of it. -/
def daysBefore (y : Nat) : Nat := 365 * y + y / 4 - y / 100

/-- The days of the `y`-th year of a cycle, which begins in March. -/
def daysInYear (y : Nat) : Nat := if isLeap (y + 1) then 366 else 365

/-- The days of a year before the `m`-th month from March on. -/
def monthStart (m : Nat) : Nat := (153 * m + 2) / 5

/-- The days of the `m`-th month from March on. -/
def monthLength (y m : Nat) : Nat :=
  (if m < 11 then monthStart (m + 1) else daysInYear y) - monthStart m

/-- The date with a place in a cycle: the `d`-th day of the `m`-th month from March on. -/
def ofMarch (era : Int) (y m d : Nat) : Date :=
  ⟨y + era * 400 + (if m < 10 then 0 else 1), if m < 10 then m + 3 else m - 9, d⟩

end Defs

section Years

theorem daysBefore_parts {c q t : Nat} (hq : q ≤ 24) (ht : t ≤ 3) :
    daysBefore (100 * c + 4 * q + t) = 36524 * c + 1461 * q + 365 * t := by
  unfold daysBefore
  omega

theorem isLeap_iff (year : Int) :
    isLeap year = true ↔ year % 4 = 0 ∧ (year % 100 ≠ 0 ∨ year % 400 = 0) := by
  simp [isLeap]

theorem daysInYear_parts {c q t : Nat} (hc : c ≤ 3) (hq : q ≤ 24) (ht : t ≤ 3) :
    daysInYear (100 * c + 4 * q + t) = if t = 3 ∧ (q = 24 → c = 3) then 366 else 365 := by
  have hleap : isLeap ((100 * c + 4 * q + t : Nat) + 1 : Int) = true ↔ t = 3 ∧ (q = 24 → c = 3) := by
    rw [isLeap_iff]
    omega
  simp only [daysInYear, hleap]

theorem daysInYear_bounds (y : Nat) : 365 ≤ daysInYear y ∧ daysInYear y ≤ 366 := by
  unfold daysInYear
  split <;> omega

/-- A year of a cycle is the `t`-th of four years within a century. -/
theorem year_parts {y : Nat} (h : y < 400) :
    ∃ c q t, c ≤ 3 ∧ q ≤ 24 ∧ t ≤ 3 ∧ y = 100 * c + 4 * q + t :=
  ⟨y / 100, y % 100 / 4, y % 4, by omega, by omega, by omega, by omega⟩

/-- **The year of a day of a cycle** is the one in which it lies. -/
theorem yearOfCycle_add {y inYear : Nat} (hy : y < 400) (h : inYear < daysInYear y) :
    daysBefore y + inYear < cycle ∧ yearOfCycle (daysBefore y + inYear) = y := by
  obtain ⟨c, q, t, hc, hq, ht, rfl⟩ := year_parts hy
  rw [daysInYear_parts hc hq ht] at h
  have hlong : inYear ≤ 365 ∧ (inYear = 365 → t = 3 ∧ (q = 24 → c = 3)) := by
    split at h
    · next hleap => exact ⟨by omega, fun _ => hleap⟩
    · exact ⟨by omega, by omega⟩
  obtain ⟨hmost, hleap⟩ := hlong
  rw [daysBefore_parts hq ht]
  generalize hr : 365 * t + inYear = r
  have hday : 36524 * c + 1461 * q + 365 * t + inYear = 36524 * c + 1461 * q + r := by omega
  rw [hday]
  unfold yearOfCycle cycle
  -- Only the last day of the cycle has come to a fifth century.
  by_cases hlast : q = 24 ∧ r = 1460
  · obtain ⟨rfl, rfl⟩ := hlast
    obtain ⟨rfl, hc3⟩ := hleap (by omega)
    obtain rfl := hc3 rfl
    omega
  · have hcentury : (36524 * c + 1461 * q + r) / 36524 = c := by omega
    have hcycle : (36524 * c + 1461 * q + r) / 146096 = 0 := by omega
    have hfour : (36524 * c + 1461 * q + r) / 1460 = 25 * c + q + (24 * c + q + r) / 1460 := by
      omega
    have hcarry : (24 * c + q + r) / 1460 = 0 ∨ (24 * c + q + r) / 1460 = 1 ∧ 1364 ≤ r := by omega
    rw [hcentury, hcycle, hfour]
    refine ⟨by omega, ?_⟩
    rcases hcarry with hnone | ⟨hone, hlate⟩
    · rw [hnone]
      omega
    · rw [hone]
      omega

/-- Every day of a cycle lies in a year of it. -/
theorem exists_year {day : Nat} (h : day < cycle) :
    ∃ y inYear, y < 400 ∧ inYear < daysInYear y ∧ day = daysBefore y + inYear := by
  unfold cycle at h
  -- The last day of the cycle belongs to its fourth century, and the last day of four years to the
  -- fourth of them.
  obtain ⟨c, hc, hcentury⟩ : ∃ c, c ≤ 3 ∧ 36524 * c ≤ day ∧ (day < 36524 * (c + 1) ∨ c = 3) :=
    ⟨min (day / 36524) 3, by omega, by omega, by omega⟩
  obtain ⟨q, r, hq, hr, hday⟩ : ∃ q r, q ≤ 24 ∧ r ≤ 1460 ∧ day = 36524 * c + 1461 * q + r :=
    ⟨(day - 36524 * c) / 1461, (day - 36524 * c) % 1461, by omega, by omega, by omega⟩
  obtain ⟨t, ht, hyear⟩ : ∃ t, t ≤ 3 ∧ 365 * t ≤ r ∧ (r < 365 * (t + 1) ∨ t = 3) :=
    ⟨min (r / 365) 3, by omega, by omega, by omega⟩
  refine ⟨100 * c + 4 * q + t, r - 365 * t, by omega, ?_, ?_⟩
  · rw [daysInYear_parts hc hq ht]
    split <;> omega
  · rw [daysBefore_parts hq ht]
    omega

/-- The next year begins where a year ends, and so does the next cycle. -/
theorem daysBefore_add_one {y : Nat} (hy : y < 400) :
    daysBefore y + daysInYear y = if y = 399 then cycle else daysBefore (y + 1) := by
  obtain ⟨c, q, t, hc, hq, ht, rfl⟩ := year_parts hy
  rw [daysInYear_parts hc hq ht]
  unfold daysBefore cycle
  split <;> split <;> omega

end Years

section Months

/-- The months from March on have the lengths of the calendar. -/
theorem daysInMonth_ofMarch (era : Int) {y m : Nat} (hm : m < 12) (d : Nat) :
    daysInMonth (ofMarch era y m d).year (ofMarch era y m d).month = monthLength y m := by
  have hleap : isLeap (y + era * 400 + 1) = isLeap (y + 1) := by
    have hfour : ((y : Int) + era * 400 + 1) % 4 = (y + 1) % 4 := by omega
    have hcentury : ((y : Int) + era * 400 + 1) % 100 = (y + 1) % 100 := by omega
    have hcycle : ((y : Int) + era * 400 + 1) % 400 = (y + 1) % 400 := by omega
    rw [isLeap, isLeap, hfour, hcentury, hcycle]
  interval_cases m <;> simp [daysInMonth, ofMarch, monthLength, monthStart, daysInYear, hleap]
  split <;> omega

theorem ofMarch_early (era : Int) (y : Nat) {m : Nat} (d : Nat) (h : m < 10) :
    ofMarch era y m d = ⟨y + era * 400, m + 3, d⟩ := by
  simp only [ofMarch, if_pos h, Int.add_zero]

theorem ofMarch_late (era : Int) (y : Nat) {m : Nat} (d : Nat) (h : ¬ m < 10) :
    ofMarch era y m d = ⟨y + era * 400 + 1, m - 9, d⟩ := by
  simp only [ofMarch, if_neg h]

/-- Every month has its place in a year that begins in March. -/
theorem exists_march {d : Date} (h : 1 ≤ d.month) (h' : d.month ≤ 12) :
    ∃ era y m, y < 400 ∧ m < 12 ∧ d = ofMarch era y m d.day := by
  obtain ⟨year, month, day⟩ := d
  simp only at h h'
  by_cases hearly : month ≤ 2
  · refine ⟨(year - 1) / 400, ((year - 1) % 400).toNat, month + 9, by omega, by omega, ?_⟩
    rw [ofMarch_late _ _ _ (by omega)]
    congr 1
    · omega
  · refine ⟨year / 400, (year % 400).toNat, month - 3, by omega, by omega, ?_⟩
    rw [ofMarch_early _ _ _ (by omega)]
    congr 1
    · omega
    · omega

/-- A date with a place in a cycle is one that there is if its day is in its month. -/
theorem real_ofMarch (era : Int) {y m d : Nat} (hm : m < 12) :
    (ofMarch era y m d).Real ↔ 1 ≤ d ∧ d ≤ monthLength y m := by
  have hlength := daysInMonth_ofMarch era (y := y) hm d
  constructor
  · intro h
    exact ⟨h.day_pos, hlength ▸ h.day_le⟩
  · intro h
    refine ⟨?_, ?_, h.1, hlength ▸ h.2⟩
    · simp only [ofMarch]
      split <;> omega
    · simp only [ofMarch]
      split <;> omega

/-- The days of a month are days of its year. -/
theorem monthStart_lt {y m d : Nat} (hm : m < 12) (hd : 1 ≤ d) (hd' : d ≤ monthLength y m) :
    monthStart m + (d - 1) < daysInYear y := by
  have hyear := (daysInYear_bounds y).1
  unfold monthLength monthStart at hd'
  unfold monthStart
  split at hd' <;> omega

/-- The month of a day of a year that begins in March. -/
theorem month_of_day {y m d : Nat} (hm : m < 12) (hd : 1 ≤ d) (hd' : d ≤ monthLength y m) :
    (5 * (monthStart m + (d - 1)) + 2) / 153 = m := by
  have hyear := (daysInYear_bounds y).2
  unfold monthLength monthStart at hd'
  unfold monthStart
  split at hd' <;> omega

end Months

section Days

/-- The number of a day by its place in a cycle. -/
theorem dayNumber_ofMarch (era : Int) {y m d : Nat} (hy : y < 400) (hm : m < 12) (hd : 1 ≤ d) :
    dayNumber (ofMarch era y m d) =
      era * cycle + daysBefore y + monthStart m + (d - 1) - epochOffset := by
  have hera : ((y : Int) + era * 400) / 400 = era := by omega
  have hyear : ((y : Int) + era * 400) % 400 = y := by omega
  unfold dayNumber
  by_cases hearly : m < 10
  · have hmonth : ¬ m + 3 ≤ 2 := by omega
    rw [ofMarch_early era y d hearly]
    simp only [if_neg hmonth, Nat.add_sub_cancel, hera, hyear, Int.ofNat_eq_natCast]
    unfold daysBefore monthStart
    omega
  · have hmonth : m - 9 ≤ 2 := by omega
    have hplace : m - 9 + 9 = m := by omega
    rw [ofMarch_late era y d hearly]
    simp only [if_pos hmonth, hplace, Int.add_sub_cancel, hera, hyear, Int.ofNat_eq_natCast]
    unfold daysBefore monthStart
    omega

/-- The date of a day by its place in a cycle. -/
theorem dateOfDay_ofMarch (era : Int) {y m d : Nat} (hy : y < 400) (hm : m < 12) (hd : 1 ≤ d)
    (hd' : d ≤ monthLength y m) :
    dateOfDay (era * cycle + daysBefore y + monthStart m + (d - 1) - epochOffset) = ofMarch era y m d := by
  have hin := monthStart_lt hm hd hd'
  obtain ⟨hcycle, hyear⟩ := yearOfCycle_add hy hin
  have hz : era * cycle + daysBefore y + monthStart m + (d - 1) - epochOffset + epochOffset =
      era * (cycle : Int) + ((daysBefore y + (monthStart m + (d - 1)) : Nat) : Int) := by
    omega
  have hera : (era * cycle + ((daysBefore y + (monthStart m + (d - 1)) : Nat) : Int)) / cycle = era := by
    unfold cycle at *
    omega
  have hrest : ((era * cycle + ((daysBefore y + (monthStart m + (d - 1)) : Nat) : Int)) % cycle).toNat =
      daysBefore y + (monthStart m + (d - 1)) := by
    unfold cycle at *
    omega
  have hinYear : daysBefore y + (monthStart m + (d - 1)) - (365 * y + y / 4 - y / 100) =
      monthStart m + (d - 1) := by
    unfold daysBefore
    omega
  have hmonth := month_of_day hm hd hd'
  have hday : monthStart m + (d - 1) - (153 * m + 2) / 5 + 1 = d := by
    unfold monthStart
    omega
  unfold dateOfDay
  simp only [hz, hera, hrest, hyear, hinYear, hmonth, hday, Int.ofNat_eq_natCast]
  by_cases hearly : m < 10
  · have hlate : ¬ m + 3 ≤ 2 := by omega
    rw [ofMarch_early era y d hearly, if_pos hearly, if_neg hlate, Int.add_zero]
  · have hlate : m - 9 ≤ 2 := by omega
    rw [ofMarch_late era y d hearly, if_neg hearly, if_pos hlate]

/-- Every day has a place in a cycle. -/
theorem exists_day (n : Int) : ∃ era y m d, y < 400 ∧ m < 12 ∧ 1 ≤ d ∧ d ≤ monthLength y m ∧
    n = era * cycle + daysBefore y + monthStart m + (d - 1) - epochOffset := by
  have hcycle : ((n + epochOffset) % cycle).toNat < cycle := by
    unfold cycle
    omega
  obtain ⟨y, inYear, hy, hin, hday⟩ := exists_year hcycle
  have hyear := (daysInYear_bounds y).2
  refine ⟨(n + epochOffset) / cycle, y, (5 * inYear + 2) / 153,
    inYear - monthStart ((5 * inYear + 2) / 153) + 1, hy, by omega, by omega, ?_, ?_⟩
  · unfold monthLength monthStart
    split <;> omega
  · unfold monthStart
    unfold cycle at *
    omega

theorem dayNumber_dateOfDay (n : Int) : (dateOfDay n).Real ∧ dayNumber (dateOfDay n) = n := by
  obtain ⟨era, y, m, d, hy, hm, hd, hd', rfl⟩ := exists_day n
  rw [dateOfDay_ofMarch era hy hm hd hd', dayNumber_ofMarch era hy hm hd, real_ofMarch era hm]
  exact ⟨⟨hd, hd'⟩, rfl⟩

theorem dateOfDay_dayNumber {date : Date} (h : date.Real) : dateOfDay (dayNumber date) = date := by
  obtain ⟨era, y, m, hy, hm, hdate⟩ := exists_march h.month_pos h.month_le
  rw [hdate, real_ofMarch era hm] at h
  rw [hdate, dayNumber_ofMarch era hy hm h.1, dateOfDay_ofMarch era hy hm h.1 h.2]

end Days

section Tomorrow

variable {era : Int} {y m d : Nat}

theorem next_within (hm : m < 12) (hd : d < monthLength y m) :
    (ofMarch era y m d).next = ofMarch era y m (d + 1) := by
  have hlength := daysInMonth_ofMarch era (y := y) hm d
  exact if_pos (hlength ▸ hd)

/-- The day after the last day of a month. -/
theorem next_month (hm : m < 11) (hd : ¬ d < monthLength y m) :
    (ofMarch era y m d).next = ofMarch era y (m + 1) 1 := by
  have hlength := daysInMonth_ofMarch era (y := y) (Nat.lt_succ_of_lt hm) d
  refine (if_neg (hlength ▸ hd)).trans ?_
  -- The year changes behind the tenth month from March on, which is December.
  rcases Nat.lt_trichotomy m 9 with hearly | rfl | hlate
  · rw [ofMarch_early era y d (by omega), ofMarch_early era y 1 (by omega)]
    exact if_pos (show m + 3 < 12 by omega)
  · exact (if_neg (show ¬ 9 + 3 < 12 by decide)).trans (by simp [ofMarch])
  · have hmonth : m - 9 + 1 = m + 1 - 9 := by omega
    rw [ofMarch_late era y d (by omega), ofMarch_late era y 1 (by omega), ← hmonth]
    exact if_pos (show m - 9 < 12 by omega)

/-- The day after the last day of February. -/
theorem next_year (hd : ¬ d < monthLength y 11) :
    (ofMarch era y 11 d).next = ofMarch era (y + 1) 0 1 := by
  have hlength := daysInMonth_ofMarch era (y := y) (m := 11) (by decide) d
  have hyear : (y : Int) + era * 400 + 1 = ((y + 1 : Nat) : Int) + era * 400 := by omega
  refine (if_neg (hlength ▸ hd)).trans ?_
  rw [ofMarch_early era (y + 1) 1 (by decide), ofMarch_late era y d (by decide), ← hyear]
  exact if_pos (show 11 - 9 < 12 by decide)

theorem monthLength_pos (y : Nat) (hm : m < 12) : 1 ≤ monthLength y m := by
  have := (daysInYear_bounds y).1
  unfold monthLength monthStart
  split <;> omega

/-- The first day of a month. -/
theorem first_ofMarch (era : Int) (hy : y < 400) (hm : m < 12) :
    (ofMarch era y m 1).Real ∧
      dayNumber (ofMarch era y m 1) = era * cycle + daysBefore y + monthStart m - epochOffset := by
  refine ⟨(real_ofMarch era hm).2 ⟨Nat.le_refl 1, monthLength_pos y hm⟩, ?_⟩
  rw [dayNumber_ofMarch era hy hm (Nat.le_refl 1)]
  omega

/-- The first day of a year, which may be the first one of the next cycle. -/
theorem first_of_year (era : Int) (hy : y < 400) :
    (ofMarch era (y + 1) 0 1).Real ∧ dayNumber (ofMarch era (y + 1) 0 1) =
      era * cycle + daysBefore y + daysInYear y - epochOffset := by
  have hbefore := daysBefore_add_one hy
  have hmarch : monthStart 0 = 0 := rfl
  by_cases hlast : y = 399
  · have hcycle : ofMarch era (y + 1) 0 1 = ofMarch (era + 1) 0 0 1 := by
      rw [ofMarch_early _ _ 1 (by decide), ofMarch_early _ _ 1 (by decide), hlast]
      congr 1
      omega
    have hzero : daysBefore 0 = 0 := rfl
    rw [if_pos hlast] at hbefore
    rw [hcycle]
    refine (first_ofMarch (era + 1) (by decide) (by decide)).imp_right fun h => ?_
    rw [h, Int.add_mul]
    omega
  · rw [if_neg hlast] at hbefore
    refine (first_ofMarch era (by omega) (by decide)).imp_right fun h => ?_
    rw [h]
    omega

/-- **The day after a date that there is** is one that there is, and its number is the next one. -/
theorem next_real {date : Date} (h : date.Real) :
    date.next.Real ∧ dayNumber date.next = dayNumber date + 1 := by
  obtain ⟨era, y, m, hy, hm, hdate⟩ := exists_march h.month_pos h.month_le
  generalize date.day = d at hdate
  subst hdate
  obtain ⟨hd, hd'⟩ := (real_ofMarch era hm).1 h
  rw [dayNumber_ofMarch era hy hm hd]
  by_cases hwithin : d < monthLength y m
  · rw [next_within hm hwithin, real_ofMarch era hm, dayNumber_ofMarch era hy hm (by omega)]
    exact ⟨⟨by omega, hwithin⟩, by omega⟩
  have hlast : d = monthLength y m := by omega
  by_cases hmonth : m < 11
  · have hlength : monthStart m + d = monthStart (m + 1) := by
      rw [hlast]
      unfold monthLength monthStart
      rw [if_pos hmonth]
      omega
    rw [next_month hmonth hwithin]
    refine (first_ofMarch era hy (by omega)).imp_right fun hfirst => ?_
    rw [hfirst]
    omega
  · obtain rfl : m = 11 := by omega
    have hlength : monthStart 11 + d = daysInYear y := by
      have := (daysInYear_bounds y).1
      rw [hlast]
      unfold monthLength monthStart
      rw [if_neg hmonth]
      omega
    rw [next_year hwithin]
    refine (first_of_year era hy).imp_right fun hfirst => ?_
    rw [hfirst]
    omega

/-- Counting on by some days. -/
theorem iterate_next {date : Date} (h : date.Real) (k : Nat) :
    (Date.next^[k] date).Real ∧ dayNumber (Date.next^[k] date) = dayNumber date + k := by
  induction k with
  | zero => exact ⟨h, (Int.add_zero _).symm⟩
  | succ k ih =>
    obtain ⟨hreal, hnumber⟩ := next_real ih.1
    rw [Function.iterate_succ_apply']
    refine ⟨hreal, ?_⟩
    rw [hnumber, ih.2]
    omega

theorem dayNumber_injective {a b : Date} (ha : a.Real) (hb : b.Real)
    (h : dayNumber a = dayNumber b) : a = b := by
  rw [← dateOfDay_dayNumber ha, h, dateOfDay_dayNumber hb]

theorem epoch_real : epoch.Real ∧ dayNumber epoch = 0 := by
  have hzero := dayNumber_dateOfDay 0
  have hepoch : dateOfDay 0 = epoch := by decide
  rwa [hepoch] at hzero

/-- **The number of a date is its distance from 1 January 1970.** -/
theorem lies_iff {date : Date} (h : date.Real) (days : Int) :
    date.Lies days ↔ days = dayNumber date := by
  obtain ⟨hfrom, hfrom'⟩ := iterate_next epoch_real.1 days.toNat
  obtain ⟨hto, hto'⟩ := iterate_next h (-days).toNat
  rw [epoch_real.2] at hfrom'
  constructor
  · intro hlies
    have hsame := congrArg dayNumber hlies
    omega
  · intro hdays
    exact dayNumber_injective hfrom hto (by omega)

end Tomorrow

end Calendar
end VoiceRelay
