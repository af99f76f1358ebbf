/-!
# Instants — the calendar

Dates of the Gregorian calendar, extended to all years, and their count of days
from 1970-01-01 on: `Date.toDay` counts, `Date.ofDay` finds the date of a day.
-/


namespace ScopedDocs

/-- A date of the calendar. -/
structure Date where
  /-- The year; the year before 1 is 0. -/
  year : Int
  /-- The month, from 1 to 12. -/
  month : Nat
  /-- The day of the month, from 1 on. -/
  day : Nat
  deriving DecidableEq

namespace Date

/-- Whether a year has a 29th of February. -/
def isLeapYear (year : Int) : Bool :=
  year % 4 == 0 && (year % 100 != 0 || year % 400 == 0)

/-- The lengths of a year's months. -/
def monthLengths (year : Int) : List Nat :=
  [31, if isLeapYear year then 29 else 28, 31, 30, 31, 30, 31, 31, 30, 31, 30, 31]

/-- The number of days from the first of January of year 1 to that of a year. -/
def daysBeforeYear (year : Int) : Int :=
  365 * (year - 1) + (year - 1) / 4 - (year - 1) / 100 + (year - 1) / 400

/-- The number of days from the first of January of year 1 to 1970-01-01. -/
def epochDay : Int := 719162

/-- Whether the month and the day exist in the year. -/
def isReal (d : Date) : Bool :=
  1 ≤ d.month && 1 ≤ d.day &&
    (match (monthLengths d.year)[d.month - 1]? with
      | some length => d.day ≤ length
      | none => false)

/-- The number of days from 1970-01-01 to a date. -/
def toDay (d : Date) : Int :=
  let before : Nat := ((monthLengths d.year).take (d.month - 1)).foldl (· + ·) 0
  daysBeforeYear d.year + before + (d.day - 1 : Nat) - epochDay

/-- The year of a day counted from the first of January of year 1: the mean
length of a year gives it up to one. -/
def yearOf (day : Int) : Int :=
  let guess := 400 * day / 146097 + 1
  if day < daysBeforeYear guess then guess - 1
  else if daysBeforeYear (guess + 1) ≤ day then guess + 1
  else guess

/-- The month and the day of the month of a day of a year, both counted from
zero on, given the lengths of the months. -/
def splitMonths : List Nat → Nat → Nat × Nat
  | [], rest => (0, rest)
  | length :: lengths, rest =>
    if rest < length then (0, rest)
    else
      let (month, day) := splitMonths lengths (rest - length)
      (month + 1, day)

/-- The date of a day counted from 1970-01-01. -/
def ofDay (day : Int) : Date :=
  let n := day + epochDay
  let year := yearOf n
  let (month, rest) := splitMonths (monthLengths year) (n - daysBeforeYear year).toNat
  ⟨year, month + 1, rest + 1⟩

/-- A day lies in its year. -/
theorem daysBeforeYear_yearOf (day : Int) :
    daysBeforeYear (yearOf day) ≤ day ∧ day < daysBeforeYear (yearOf day + 1) := by
  unfold yearOf daysBeforeYear
  dsimp only
  split
  · omega
  · split <;> omega

end Date

end ScopedDocs
