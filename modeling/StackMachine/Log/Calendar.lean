import StackMachine.Text.Layout

/-!
# Calendar — the date of a moment

Moments are counted from the start of 1970. Days are grouped into eras of four hundred years that
begin on the first of March, so that the leap day is the last day of a year; an era has 146097
days. `Calendar.dateOfDays` takes a day number apart along this grouping.
-/

namespace StackMachine

structure Date where
  year : Nat
  month : Nat
  day : Nat
  deriving DecidableEq, Repr

namespace Calendar

/-- Days in an era of four hundred years. -/
def daysPerEra : Nat := 146097

/-- Days from the start of era zero to the start of 1970. -/
def epochDay : Nat := 719468

/-- The year of a day within its era, years beginning in March. -/
def yearOfEra (dayOfEra : Nat) : Nat :=
  (dayOfEra - dayOfEra / 1460 + dayOfEra / 36524 - dayOfEra / 146096) / 365

/-- Days of an era before one of its years. -/
def daysBeforeYear (year : Nat) : Nat := 365 * year + year / 4 - year / 100

/-- The month of a day within its year, March being month zero. -/
def monthFromMarch (dayOfYear : Nat) : Nat := (5 * dayOfYear + 2) / 153

/-- Days of a year before one of its months. -/
def daysBeforeMonth (month : Nat) : Nat := (153 * month + 2) / 5

/-- The date of a day number. The year is kept modulo the numbers of thirty-two bits. -/
def dateOfDays (days : Nat) : Date :=
  let era := (days + epochDay) / daysPerEra
  let dayOfEra := (days + epochDay) % daysPerEra
  let year := yearOfEra dayOfEra
  let dayOfYear := dayOfEra - daysBeforeYear year
  let march := monthFromMarch dayOfYear
  let day := dayOfYear - daysBeforeMonth march + 1
  let month := if march < 10 then march + 3 else march - 9
  let carry := if month ≤ 2 then 1 else 0
  ⟨(year + era * 400 + carry) % UInt32.size, month, day⟩

/-- The date and time of a moment, in seconds and nanoseconds, to the millisecond. -/
def timestamp (seconds nanoseconds : Nat) : String :=
  let date := dateOfDays (seconds / 86400)
  Text.zeros 4 date.year ++ "-" ++ Text.zeros 2 date.month ++ "-" ++ Text.zeros 2 date.day ++ " " ++
    Text.zeros 2 (seconds / 3600 % 24) ++ ":" ++ Text.zeros 2 (seconds / 60 % 60) ++ ":" ++
    Text.zeros 2 (seconds % 60) ++ "." ++ Text.zeros 3 (nanoseconds / 1000000)

end Calendar

end StackMachine
