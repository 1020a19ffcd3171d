/-!
# Calendar dates

A date of the Gregorian calendar, extended without end in both directions, and its number of days since
1970-01-01. A year is counted from March, so that the day that leap years add comes last: the year `y`
then begins `365 y + y / 4 - y / 100 + y / 400` days after the first of March of year 0, with quotients
rounded down, and the month `m` of such a year begins `(153 m + 2) / 5` days after it.
-/

set_option autoImplicit false

namespace MediaCatalogue

/-- A year, a month from 1 and a day from 1. -/
structure Date where
  year : Int
  month : Nat
  day : Nat
deriving DecidableEq

namespace Date

/-- Whether a year has a day more: every fourth year, except the hundreds that are not multiples of four
hundred. -/
def isLeapYear (year : Int) : Bool :=
  year % 4 == 0 && (year % 100 != 0 || year % 400 == 0)

/-- How many days a month of a year has. -/
def daysInMonth (year : Int) (month : Nat) : Nat :=
  if month = 2 then (if isLeapYear year then 29 else 28)
  else if month = 4 || month = 6 || month = 9 || month = 11 then 30
  else 31

/-- Whether there is such a day in the calendar. -/
def isValid (d : Date) : Bool :=
  1 ≤ d.month && d.month ≤ 12 && 1 ≤ d.day && d.day ≤ daysInMonth d.year d.month

/-- Whether the year of a date is among those in which instants lie. -/
def isNear (d : Date) : Bool :=
  -262143 ≤ d.year && d.year ≤ 262142

/-- The days from 1970-01-01 to a date. -/
def toDays (d : Date) : Int :=
  let year := if d.month ≤ 2 then d.year - 1 else d.year
  let month : Int := (d.month + 9) % 12
  365 * year + year / 4 - year / 100 + year / 400 + (153 * month + 2) / 5 + d.day - 719469

/-- The date that is so many days after 1970-01-01. -/
def ofDays (days : Int) : Date :=
  let days := days + 719468
  let era := days / 146097
  let dayOfEra := days % 146097
  let yearOfEra :=
    (dayOfEra - dayOfEra / 1460 + dayOfEra / 36524 - dayOfEra / 146096) / 365
  let dayOfYear := dayOfEra - (365 * yearOfEra + yearOfEra / 4 - yearOfEra / 100)
  let month := (5 * dayOfYear + 2) / 153
  let day := dayOfYear - (153 * month + 2) / 5 + 1
  let year := yearOfEra + era * 400
  if month < 10 then ⟨year, (month + 3).toNat, day.toNat⟩
  else ⟨year + 1, (month - 9).toNat, day.toNat⟩

end Date
end MediaCatalogue
