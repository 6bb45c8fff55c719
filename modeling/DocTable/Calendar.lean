import DocTable.Text.Integer

/-!
# Days and dates

The Gregorian calendar, extended in both directions without end; the year before year 1 is year 0.
Days are counted from the first of January of year 0.
-/

set_option autoImplicit false

namespace DocTable

/-- A day of the calendar; months and days count from 1. -/
structure Date where
  year : Int
  month : Nat
  day : Nat
  deriving DecidableEq, Repr

namespace Calendar

/-- Every fourth year is a leap year, save the hundredth that is not a four-hundredth. -/
def isLeap (year : Int) : Bool :=
  year % 4 = 0 && (year % 100 ≠ 0 || year % 400 = 0)

/-- The days before the first of January of a year. -/
def daysBeforeYear (year : Int) : Int :=
  365 * year + (year + 3) / 4 - (year + 99) / 100 + (year + 399) / 400

/-- The lengths of a year's months. -/
def monthLengths (year : Int) : List Nat :=
  [31, if isLeap year then 29 else 28, 31, 30, 31, 30, 31, 31, 30, 31, 30, 31]

/-- The days of some months, given their lengths. -/
def totalDays (lengths : List Nat) : Nat :=
  lengths.foldr (· + ·) 0

/-- The year that a day falls in: the mean length of a year gives it to within one. -/
def yearOfDay (day : Int) : Int :=
  let guess := 400 * day / 146097
  if day < daysBeforeYear guess then guess - 1
  else if daysBeforeYear (guess + 1) ≤ day then guess + 1
  else guess

/-- The month and the day in it of the day that `offset` days follow the first of month `month`,
given the lengths of that month and those after it. -/
def monthDay : (month : Nat) → (lengths : List Nat) → (offset : Nat) → Nat × Nat
  | month, [], offset => (month, offset + 1)
  | month, length :: lengths, offset =>
    if offset < length then (month, offset + 1) else monthDay (month + 1) lengths (offset - length)

/-- The date of a day. -/
def dateOfDay (day : Int) : Date :=
  let year := yearOfDay day
  let (month, dayOfMonth) := monthDay 1 (monthLengths year) (day - daysBeforeYear year).toNat
  ⟨year, month, dayOfMonth⟩

/-- The day of a date. -/
def dayOfDate (date : Date) : Int :=
  daysBeforeYear date.year
    + totalDays ((monthLengths date.year).take (date.month - 1)) + (date.day - 1 : Nat)

/-- Whether a date is in the calendar. -/
def exists? (date : Date) : Bool :=
  1 ≤ date.day && 1 ≤ date.month
    && ((monthLengths date.year)[date.month - 1]?).any (date.day ≤ ·)

end Calendar

end DocTable
