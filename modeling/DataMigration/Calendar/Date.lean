/-!
# The proleptic Gregorian calendar

Days are counted from 1970-01-01. The count uses years that start in March, so a leap day is the
last day of its year: `yearDay` is the day inside such a year and `monthStart` the day on which its
months begin.
-/

namespace DataMigration.Calendar

/-- A date; years before year 1 continue with 0 and the negative numbers. -/
structure Date where
  year : Int
  month : Nat
  day : Nat
  deriving DecidableEq, Repr, Inhabited

/-- The least year of the calendar. -/
def minYear : Int := -262143

/-- The greatest year of the calendar. -/
def maxYear : Int := 262142

/-- Every fourth year, but of the full centuries only every fourth. -/
def isLeapYear (y : Int) : Bool := y % 4 == 0 && (y % 100 != 0 || y % 400 == 0)

/-- The number of days of a month. -/
def daysInMonth (y : Int) (m : Nat) : Nat :=
  if m = 2 then if isLeapYear y then 29 else 28
  else if m = 4 ∨ m = 6 ∨ m = 9 ∨ m = 11 then 30
  else 31

/-- A date of the calendar. -/
def Date.isValid (d : Date) : Bool :=
  decide (minYear ≤ d.year) && decide (d.year ≤ maxYear) &&
    decide (1 ≤ d.month) && decide (d.month ≤ 12) &&
    decide (1 ≤ d.day) && decide (d.day ≤ daysInMonth d.year d.month)

/-- The day on which a month begins in a year that starts in March; March is month 0. -/
def monthStart (m : Int) : Int := (153 * m + 2) / 5

/-- The days from 1970-01-01 to the date. -/
def Date.toDays (d : Date) : Int :=
  let late : Bool := decide (2 < d.month)
  let y : Int := if late then d.year else d.year - 1
  let m : Int := if late then d.month - 3 else d.month + 9
  365 * y + y / 4 - y / 100 + y / 400 + monthStart m + d.day - 1 - 719468

/-- The date at a distance in days from 1970-01-01. -/
def Date.ofDays (n : Int) : Date :=
  let z := n + 719468
  let era := z / 146097
  let dayOfEra := z % 146097
  let yearOfEra := (dayOfEra - dayOfEra / 1460 + dayOfEra / 36524 - dayOfEra / 146096) / 365
  let yearDay := dayOfEra - (365 * yearOfEra + yearOfEra / 4 - yearOfEra / 100)
  let m := (5 * yearDay + 2) / 153
  let day := yearDay - monthStart m + 1
  let month := if m < 10 then m + 3 else m - 9
  ⟨yearOfEra + era * 400 + (if month ≤ 2 then 1 else 0), month.toNat, day.toNat⟩

/-- The days of the first and the last date of the calendar. -/
def minDay : Int := Date.toDays ⟨minYear, 1, 1⟩

/-- The day of the last date of the calendar. -/
def maxDay : Int := Date.toDays ⟨maxYear, 12, 31⟩

end DataMigration.Calendar
