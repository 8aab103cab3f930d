/-!
# Civil time

Dates of the proleptic Gregorian calendar with a year zero, and times of day to the nanosecond.
Both count from the start of the year 2000, the instant that timestamps on the wire are measured
from.  Years are counted from March, so that a leap day is the last day of its year: four
centuries make a cycle, and a cycle splits into centuries, spans of four years and years whose
last members alone differ in length.
-/

namespace SchemaWire

/-- A calendar date. -/
structure Date where
  /-- Year, with a year zero before the year one. -/
  year : Int
  /-- Month, from one to twelve. -/
  month : Nat
  /-- Day of the month, from one. -/
  day : Nat
  deriving DecidableEq, Repr

namespace Date

/-- Days in a cycle of four centuries. -/
def cycleDays : Nat := 146097

/-- Days from the first of March of the year zero to the first of January 2000. -/
def epochDay : Int := 730425

/-- Whether a year has a leap day. -/
def isLeap (year : Int) : Bool :=
  year % 4 = 0 && (year % 100 ≠ 0 || year % 400 = 0)

/-- Number of days in a month. -/
def monthLength (year : Int) (month : Nat) : Nat :=
  match month with
  | 2 => if isLeap year then 29 else 28
  | 4 | 6 | 9 | 11 => 30
  | _ => 31

/-- A date that the calendar has. -/
def Valid (date : Date) : Prop :=
  1 ≤ date.month ∧ date.month ≤ 12 ∧ 1 ≤ date.day ∧ date.day ≤ monthLength date.year date.month

instance (date : Date) : Decidable date.Valid := by
  unfold Valid
  infer_instance

/-- The year that a date falls in when years begin in March. -/
def marchYear (date : Date) : Int :=
  if date.month ≤ 2 then date.year - 1 else date.year

/-- Days between the first of March before a date and the date. -/
def marchDay (date : Date) : Nat :=
  let month := if date.month ≤ 2 then date.month + 9 else date.month - 3
  (153 * month + 2) / 5 + (date.day - 1)

/-- Days from the start of a cycle to the start of one of its four hundred years. -/
def yearStart (year : Nat) : Nat :=
  year * 365 + year / 4 - year / 100

/-- Days from the first of January 2000 to a date. -/
def dayNumber (date : Date) : Int :=
  date.marchYear / 400 * cycleDays + yearStart (date.marchYear % 400).toNat + date.marchDay
    - epochDay

/-- The year of a cycle and the day of that year, for a day of the cycle. -/
def splitCycle (day : Nat) : Nat × Nat :=
  let century := min (day / 36524) 3
  let inCentury := day - century * 36524
  let inFour := inCentury % 1461
  let year := min (inFour / 365) 3
  (century * 100 + inCentury / 1461 * 4 + year, inFour - year * 365)

/-- The date a number of days after the first of January 2000. -/
def ofDayNumber (number : Int) : Date :=
  let day := number + epochDay
  let (year, dayOfYear) := splitCycle (day % cycleDays).toNat
  let marchYear := day / cycleDays * 400 + year
  let month := (5 * dayOfYear + 2) / 153
  let dayOfMonth := dayOfYear - (153 * month + 2) / 5 + 1
  if month < 10 then
    ⟨marchYear, month + 3, dayOfMonth⟩
  else
    ⟨marchYear + 1, month - 9, dayOfMonth⟩

end Date

/-- A date and a time of day. -/
structure CivilTime where
  /-- The date. -/
  date : Date
  /-- Hour, from zero to twenty-three. -/
  hour : Nat
  /-- Minute, from zero to fifty-nine. -/
  minute : Nat
  /-- Second, from zero to fifty-nine. -/
  second : Nat
  /-- Nanosecond of the second; a leap second is told by a thousand million and more. -/
  nanosecond : Nat
  deriving DecidableEq, Repr

namespace CivilTime

/-- Nanoseconds in a day. -/
def dayLength : Int := 86400000000000

/-- A time of day without leap seconds, on a date that the calendar has. -/
def Valid (time : CivilTime) : Prop :=
  time.date.Valid ∧ time.hour < 24 ∧ time.minute < 60 ∧ time.second < 60 ∧
    time.nanosecond < 1000000000

instance (time : CivilTime) : Decidable time.Valid := by
  unfold Valid
  infer_instance

/-- Nanoseconds from midnight to a time of day. -/
def sinceMidnight (time : CivilTime) : Nat :=
  ((time.hour * 60 + time.minute) * 60 + time.second) * 1000000000 + time.nanosecond

/-- Nanoseconds from the start of the year 2000 to a time. -/
def nanoseconds (time : CivilTime) : Int :=
  time.date.dayNumber * dayLength + time.sinceMidnight

/-- The time a number of nanoseconds after the start of the year 2000. -/
def ofNanoseconds (number : Int) : CivilTime :=
  let inDay := (number % dayLength).toNat
  let seconds := inDay / 1000000000
  { date := Date.ofDayNumber (number / dayLength)
    hour := seconds / 3600
    minute := seconds / 60 % 60
    second := seconds % 60
    nanosecond := inDay % 1000000000 }

/-- The time a number of nanoseconds after the start of the year 2000, if its year lies between
two bounds. -/
def within? (first last : Int) (number : Int) : Option CivilTime :=
  let time := ofNanoseconds number
  if first ≤ time.date.year ∧ time.date.year ≤ last then some time else none

end CivilTime
end SchemaWire
