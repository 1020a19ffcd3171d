import MediaCatalogue.Calendar.Date
import Mathlib.Tactic.IntervalCases

/-!
# Days and dates

The date of a day is a date of the calendar, and the days to it are the day. An era of 400 years has four
centuries of 36524 days, but for one day more at its end; a century has spans of four years with 1461 days,
of which the last is a day short; and these have years of 365 days, but for one day more at their end. With
the quotients of the algorithm this makes the year, and the day of the year counts from the first of March.
-/

set_option autoImplicit false

namespace MediaCatalogue.Date

/-- The year of an era in which a day of the era lies, counted from March. -/
def yearOfEra (n : Int) : Int :=
  (n - n / 1460 + n / 36524 - n / 146096) / 365

/-- The day of the year, counted from March. -/
def dayOfYear (n : Int) : Int :=
  n - (365 * yearOfEra n + yearOfEra n / 4 - yearOfEra n / 100)

/-- A day of an era lies in a year of it; only a leap year has a day 365, which is the last of its
February. -/
theorem dayOfYear_spec {n : Int} (hn : 0 ≤ n ∧ n < 146097) :
    (0 ≤ yearOfEra n ∧ yearOfEra n < 400) ∧ (0 ≤ dayOfYear n ∧ dayOfYear n < 366) ∧
      (dayOfYear n = 365 → isLeapYear (yearOfEra n + 1) = true) := by
  by_cases hlast : n = 146096
  · subst hlast
    decide
  -- centuries, spans of four years, and days of such a span
  obtain ⟨c, q, r, rfl, hc, hq, hr, hcentury⟩ : ∃ c q r : Int, n = 36524 * c + 1461 * q + r ∧
      (0 ≤ c ∧ c ≤ 3) ∧ 0 ≤ q ∧ (0 ≤ r ∧ r ≤ 1460) ∧ 1461 * q + r < 36524 :=
    ⟨n / 36524, n % 36524 / 1461, n % 36524 % 1461, by omega, by omega, by omega, by omega, by omega⟩
  have hspans : q ≤ 24 := by omega
  obtain ⟨t, hquotient, ht⟩ : ∃ t, (36524 * c + 1461 * q + r) / 1460 = 25 * c + q + t ∧
      (t = 0 ∧ 24 * c + q + r < 1460 ∨ t = 1 ∧ 1460 ≤ 24 * c + q + r) := by
    by_cases hsmall : 24 * c + q + r < 1460
    · exact ⟨0, by omega, by omega⟩
    · exact ⟨1, by omega, by omega⟩
  obtain ⟨k, hk, hyear⟩ : ∃ k, (0 ≤ k ∧ k ≤ 3 ∧ 365 * k ≤ r - t ∧ r - t < 365 * k + 365) ∧
      yearOfEra (36524 * c + 1461 * q + r) = 100 * c + 4 * q + k := by
    refine ⟨(r - t) / 365, by omega, ?_⟩
    rw [yearOfEra, hquotient]
    omega
  have hday : dayOfYear (36524 * c + 1461 * q + r) = r - 365 * k := by
    have hfours : (100 * c + 4 * q + k) / 4 = 25 * c + q := by omega
    have hcenturies : (100 * c + 4 * q + k) / 100 = c := by omega
    rw [dayOfYear, hyear, hfours, hcenturies]
    omega
  rw [hyear, hday]
  refine ⟨by omega, by omega, fun hleap => ?_⟩
  -- the day 365 is the last of a whole span of four years, and not that of a century
  obtain ⟨hk, hspan⟩ : k = 3 ∧ q ≤ 23 := by omega
  have hfour : (100 * c + 4 * q + k + 1) % 4 = 0 := by omega
  have hhundred : (100 * c + 4 * q + k + 1) % 100 ≠ 0 := by omega
  simp [isLeapYear, hfour, hhundred]

/-- The month of a day of the year, counted from March, and the day of the month. -/
theorem day_spec {d m e : Int} (hd : 0 ≤ d ∧ d < 366) (hm : (5 * d + 2) / 153 = m)
    (he : d - (153 * m + 2) / 5 + 1 = e) :
    (0 ≤ m ∧ m ≤ 11) ∧ 1 ≤ e ∧ e ≤ 31 ∧ (m = 1 ∨ m = 3 ∨ m = 6 ∨ m = 8 → e ≤ 30) ∧
      (m = 11 → e ≤ 28 ∨ e = 29 ∧ d = 365) := by
  have hmonth : 0 ≤ m ∧ m ≤ 11 := by omega
  obtain ⟨hlower, hupper⟩ := hmonth
  interval_cases m <;> omega

/-- The parts from which the date of a day is made: its era, its day of the era, its month of the year and
its day of the month. -/
theorem exists_parts (days : Int) :
    ∃ era n m e : Int, days = 146097 * era + n - 719468 ∧ (0 ≤ n ∧ n < 146097) ∧
      (5 * dayOfYear n + 2) / 153 = m ∧ dayOfYear n - (153 * m + 2) / 5 + 1 = e ∧
      ofDays days =
        if m < 10 then ⟨yearOfEra n + era * 400, (m + 3).toNat, e.toNat⟩
        else ⟨yearOfEra n + era * 400 + 1, (m - 9).toNat, e.toNat⟩ :=
  ⟨(days + 719468) / 146097, (days + 719468) % 146097, _, _, by omega, by omega, rfl, rfl, rfl⟩

/-- The days to the date of a day are the day. -/
theorem toDays_ofDays (days : Int) : (ofDays days).toDays = days := by
  obtain ⟨era, n, m, e, hdays, hn, hm, he, hdate⟩ := exists_parts days
  obtain ⟨hyear, hday, -⟩ := dayOfYear_spec hn
  obtain ⟨hmonth, hfirst, -⟩ := day_spec hday hm he
  have hofyear : n = 365 * yearOfEra n + yearOfEra n / 4 - yearOfEra n / 100 + dayOfYear n := by
    rw [dayOfYear]
    omega
  -- only the parts matter now, and the year is counted from March again
  clear hm hn
  generalize yearOfEra n = y at *
  generalize dayOfYear n = d at *
  have hyears : (y + era * 400) / 4 = y / 4 + 100 * era ∧ (y + era * 400) / 100 = y / 100 + 4 * era ∧
      (y + era * 400) / 400 = era := by omega
  rw [hdate]
  split
  · have hmonths : (((m + 3).toNat : Int) + 9) % 12 = m := by omega
    simp only [toDays]
    rw [if_neg (by omega), hmonths, hyears.1, hyears.2.1, hyears.2.2]
    omega
  · have hmonths : (((m - 9).toNat : Int) + 9) % 12 = m := by omega
    simp only [toDays]
    rw [if_pos (by omega), hmonths, Int.add_sub_cancel, hyears.1, hyears.2.1, hyears.2.2]
    omega

/-- The date of a day is a date of the calendar. -/
theorem isValid_ofDays (days : Int) : (ofDays days).isValid = true := by
  obtain ⟨era, n, m, e, -, hn, hm, he, hdate⟩ := exists_parts days
  obtain ⟨-, hday, hleap⟩ := dayOfYear_spec hn
  obtain ⟨hmonth, hfirst, hlast, hthirty, hfebruary⟩ := day_spec hday hm he
  have hera : isLeapYear (yearOfEra n + era * 400 + 1) = isLeapYear (yearOfEra n + 1) := by
    have hfour : (yearOfEra n + era * 400 + 1) % 4 = (yearOfEra n + 1) % 4 := by omega
    have hhundred : (yearOfEra n + era * 400 + 1) % 100 = (yearOfEra n + 1) % 100 := by omega
    have hfourhundred : (yearOfEra n + era * 400 + 1) % 400 = (yearOfEra n + 1) % 400 := by omega
    simp only [isLeapYear, hfour, hhundred, hfourhundred]
  have hfebruary : m = 11 → e ≤ 28 ∨ e = 29 ∧ isLeapYear (yearOfEra n + era * 400 + 1) = true := fun h =>
    (hfebruary h).imp_right fun h => ⟨h.1, hera.trans (hleap h.2)⟩
  clear hm he hleap hera
  rw [hdate]
  by_cases hlong : m = 11
  · subst hlong
    rcases hfebruary rfl with hshort | ⟨rfl, hleap⟩
    · simp [isValid, daysInMonth]
      split <;> omega
    · simp [isValid, daysInMonth, hleap]
  · obtain ⟨hlower, hupper⟩ : 0 ≤ m ∧ m ≤ 10 := by omega
    clear hmonth hfebruary hdate
    interval_cases m <;> simp [isValid, daysInMonth] <;> omega

/-- No month has more than 31 days. -/
theorem daysInMonth_le (year : Int) (month : Nat) : daysInMonth year month ≤ 31 := by
  rw [daysInMonth]
  split_ifs <;> omega

/-- The days of instants lie in the years of instants. -/
theorem isNear_ofDays {days : Int} (h : -96465292 ≤ days ∧ days ≤ 95026236) :
    (ofDays days).isNear = true := by
  have hdays := toDays_ofDays days
  have hvalid := isValid_ofDays days
  generalize ofDays days = date at *
  obtain ⟨year, month, day⟩ := date
  have hlast := daysInMonth_le year month
  simp only [isValid, Bool.and_eq_true, decide_eq_true_eq] at hvalid
  obtain ⟨⟨⟨hone, htwelve⟩, hfirst⟩, hday⟩ := hvalid
  simp only [toDays] at hdays
  simp only [isNear, Bool.and_eq_true, decide_eq_true_eq]
  -- the years next to the outermost ones begin or end a day away, all others a year and more
  have hlower : year ≠ -262144 := by
    rintro rfl
    split at hdays <;> omega
  have hupper : year ≠ 262143 := by
    rintro rfl
    split at hdays <;> omega
  split at hdays <;> omega

end MediaCatalogue.Date
