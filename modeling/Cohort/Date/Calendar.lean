/-!
# The calendar

Days of the Gregorian calendar, counted from the first day of the year 1,
which is day 1, in both directions.
-/

namespace Cohort.Date

def isLeap (year : Nat) : Bool :=
  year % 4 == 0 && (year % 100 != 0 || year % 400 == 0)

/-- The days of a year before the first day of a month, in a year that is not a leap year. -/
def daysBeforeMonthPlain : Nat → Nat
  | 1 => 0 | 2 => 31 | 3 => 59 | 4 => 90 | 5 => 120 | 6 => 151
  | 7 => 181 | 8 => 212 | 9 => 243 | 10 => 273 | 11 => 304 | 12 => 334
  | 0 => 0
  | _ => 365

def daysBeforeMonth (year month : Nat) : Nat :=
  daysBeforeMonthPlain month + if 2 < month && isLeap year then 1 else 0

def daysInMonth (year month : Nat) : Nat :=
  daysBeforeMonth year (month + 1) - daysBeforeMonth year month

def daysBeforeYear (year : Nat) : Nat :=
  let y := year - 1
  y * 365 + y / 4 - y / 100 + y / 400

/-- The number of a day, one for the first day of the year 1. -/
def dayNumber (year month day : Nat) : Nat :=
  daysBeforeYear year + daysBeforeMonth year month + day

/-- The last of the months `month, month - 1, …, 1` that starts on the given day of the year or
before it. -/
def monthFrom (year dayOfYear : Nat) : Nat → Nat
  | 0 => 1
  | month + 1 =>
    if daysBeforeMonth year (month + 1) ≤ dayOfYear then month + 1
    else monthFrom year dayOfYear month

/-- The year, month and day of a day number. -/
def ofDayNumber (n : Nat) : Nat × Nat × Nat :=
  let cycles := (n - 1) / 146097
  let inCycle := (n - 1) % 146097
  let centuries := min 3 (inCycle / 36524)
  let inCentury := inCycle - 36524 * centuries
  let fours := inCentury / 1461
  let inFour := inCentury % 1461
  let years := min 3 (inFour / 365)
  let dayOfYear := inFour - 365 * years
  let year := 400 * cycles + 100 * centuries + 4 * fours + years + 1
  let month := monthFrom year dayOfYear 12
  (year, month, dayOfYear - daysBeforeMonth year month + 1)

/-- The day of the week of a day number, zero for Monday. -/
def weekday (n : Nat) : Nat := (n + 6) % 7

/-- The number of the Monday that starts the first week of a year: the week that holds the
year's first Thursday.  Integers, since the week may start before day 1. -/
def firstMonday (year : Nat) : Int :=
  let first := dayNumber year 1 1
  let day := weekday first
  (first : Int) - day + if 3 < day then 7 else 0

/-- Whether a year has a week 53: it starts on a Thursday, or on a Wednesday and is a leap year. -/
def hasWeek53 (year : Nat) : Bool :=
  let day := weekday (dayNumber year 1 1)
  day == 3 || (day == 2 && isLeap year)

end Cohort.Date
