import Cohort.Date.Calendar
import Cohort.Decimal.Layout

/-!
# Moments

A moment is a day and a time of day to the microsecond, without a zone.
Moments compare by `Moment.micros`, their distance from the start of the
calendar, and a shift goes through the same count.
-/

namespace Cohort.Date

structure Moment where
  year : Nat
  month : Nat
  day : Nat
  hour : Nat
  minute : Nat
  second : Nat
  micro : Nat
  deriving DecidableEq, Repr

namespace Moment

/-- Whether every part is in its range and the year is one of 1 to 9999. -/
def isProper (m : Moment) : Bool :=
  1 ≤ m.year && m.year ≤ 9999 && 1 ≤ m.month && m.month ≤ 12 &&
  1 ≤ m.day && m.day ≤ daysInMonth m.year m.month &&
  m.hour < 24 && m.minute < 60 && m.second < 60 && m.micro < 1000000

def dayMicros : Nat := 86400000000

def timeMicros (m : Moment) : Nat :=
  ((m.hour * 60 + m.minute) * 60 + m.second) * 1000000 + m.micro

/-- The microseconds since the start of the day before day 1. -/
def micros (m : Moment) : Nat :=
  dayNumber m.year m.month m.day * dayMicros + m.timeMicros

/-- The moment that many microseconds after the start of the day before day 1. -/
def ofMicros (n : Nat) : Moment :=
  let (year, month, day) := ofDayNumber (n / dayMicros)
  let t := n % dayMicros
  ⟨year, month, day, t / 3600000000, t / 60000000 % 60, t / 1000000 % 60, t % 1000000⟩

/-- The number of the last day of the year 9999. -/
def lastDay : Nat := 3652059

/-- The moment a signed number of microseconds earlier, within the years 1 to 9999. -/
def earlier? (m : Moment) (offset : Int) : Option Moment :=
  let n := (m.micros : Int) - offset
  if (dayMicros : Int) ≤ n ∧ n < (lastDay + 1) * dayMicros then some (ofMicros n.toNat) else none

protected def le (a b : Moment) : Bool := a.micros ≤ b.micros

/-- The day and the time of day with a separator between them, with six digits of a second if it
has a fraction. -/
def textWith (separator : String) (m : Moment) : String :=
  let p := Decimal.Layout.padded
  p 4 m.year ++ "-" ++ p 2 m.month ++ "-" ++ p 2 m.day ++ separator ++ p 2 m.hour ++ ":"
    ++ p 2 m.minute ++ ":" ++ p 2 m.second ++ if m.micro = 0 then "" else "." ++ p 6 m.micro

def text (m : Moment) : String := m.textWith "T"

end Moment

end Cohort.Date
