import SchemaWire.Calendar.Timestamp
import Mathlib.Tactic.IntervalCases

/-!
# Counting days and nanoseconds

Every number of days is that of a date which the calendar has, and every number of nanoseconds
that of a time on such a date.  Years follow one another without gaps, so the years of the times
between two instants lie between the years of the two.
-/

namespace SchemaWire
namespace Date

/-! ## Days of a cycle -/

/-- A cycle splits into centuries, spans of four years and years.  A leap day ends the last year of
a span, except that the last span of a century has one only in the last century. -/
theorem splitCycle_eq {day : Nat} (inCycle : day < cycleDays) :
    ∃ century span year dayOfYear : Nat,
      century ≤ 3 ∧ span ≤ 24 ∧ year ≤ 3 ∧
      (dayOfYear ≤ 364 ∨ dayOfYear = 365 ∧ year = 3 ∧ (span ≤ 23 ∨ century = 3)) ∧
      day = century * 36524 + span * 1461 + year * 365 + dayOfYear ∧
      splitCycle day = (century * 100 + span * 4 + year, dayOfYear) := by
  unfold cycleDays at inCycle
  refine ⟨_, _, _, _, ?_, ?_, ?_, ?_, ?_, rfl⟩
  · omega
  · omega
  · omega
  · generalize century_eq : min (day / 36524) 3 = century
    have inCentury : day - century * 36524 ≤ 36524 ∧
        (day - century * 36524 < 36524 ∨ century = 3) := by omega
    omega
  · generalize century_eq : min (day / 36524) 3 = century
    have whole : century * 36524 ≤ day := by omega
    omega

theorem yearStart_splitCycle {day : Nat} (inCycle : day < cycleDays) :
    (splitCycle day).1 < 400 ∧ yearStart (splitCycle day).1 + (splitCycle day).2 = day := by
  obtain ⟨century, span, year, dayOfYear, _, _, _, _, dayEq, eq⟩ := splitCycle_eq inCycle
  simp only [eq, yearStart]
  omega

/-- A year has three hundred and sixty-five days, and one more if a leap day ends it. -/
theorem splitCycle_snd_lt {day : Nat} (inCycle : day < cycleDays) (cycle : Int) :
    (splitCycle day).2 < 365 ∨
      (splitCycle day).2 = 365 ∧ isLeap (cycle * 400 + (splitCycle day).1 + 1) = true := by
  obtain ⟨century, span, year, dayOfYear, _, _, _, _, dayEq, eq⟩ := splitCycle_eq inCycle
  simp only [eq, isLeap, Bool.and_eq_true, Bool.or_eq_true, decide_eq_true_eq, ne_eq]
  omega

/-! ## Dates of day numbers -/

theorem ofDayNumber_eq (number : Int) :
    ∃ cycle : Int, ∃ year dayOfYear : Nat,
      year < 400 ∧
      number + epochDay = cycle * cycleDays + yearStart year + dayOfYear ∧
      (dayOfYear < 365 ∨ dayOfYear = 365 ∧ isLeap (cycle * 400 + year + 1) = true) ∧
      ofDayNumber number =
        if (5 * dayOfYear + 2) / 153 < 10 then
          ⟨cycle * 400 + year, (5 * dayOfYear + 2) / 153 + 3,
            dayOfYear - (153 * ((5 * dayOfYear + 2) / 153) + 2) / 5 + 1⟩
        else
          ⟨cycle * 400 + year + 1, (5 * dayOfYear + 2) / 153 - 9,
            dayOfYear - (153 * ((5 * dayOfYear + 2) / 153) + 2) / 5 + 1⟩ := by
  have inCycle : ((number + epochDay) % cycleDays).toNat < cycleDays := by
    unfold cycleDays
    omega
  obtain ⟨yearLt, dayEq⟩ := yearStart_splitCycle inCycle
  refine ⟨(number + epochDay) / cycleDays, _, _, yearLt, ?_, splitCycle_snd_lt inCycle _, rfl⟩
  unfold cycleDays at *
  omega

theorem valid_ofDayNumber (number : Int) : (ofDayNumber number).Valid := by
  obtain ⟨cycle, year, dayOfYear, -, -, short, eq⟩ := ofDayNumber_eq number
  rw [eq]
  have few : (5 * dayOfYear + 2) / 153 < 12 := by omega
  generalize month_eq : (5 * dayOfYear + 2) / 153 = month at few
  split
  case isTrue early =>
    interval_cases month <;> simp [Valid, monthLength] <;> omega
  case isFalse late =>
    interval_cases month
    · simp [Valid, monthLength]
      omega
    · simp only [Valid, monthLength]
      rcases short with short | ⟨rfl, leap⟩
      · split <;> omega
      · simp [leap]

theorem march_of_winter {month : Nat} (winter : month ≤ 2) (year : Int) (day : Nat) :
    marchYear ⟨year, month, day⟩ = year - 1 ∧
      marchDay ⟨year, month, day⟩ = (153 * (month + 9) + 2) / 5 + (day - 1) := by
  simp [marchYear, marchDay, winter]

theorem march_of_not_winter {month : Nat} (later : 2 < month) (year : Int) (day : Nat) :
    marchYear ⟨year, month, day⟩ = year ∧
      marchDay ⟨year, month, day⟩ = (153 * (month - 3) + 2) / 5 + (day - 1) := by
  simp [marchYear, marchDay, Nat.not_le.2 later]

theorem dayNumber_eq {date : Date} (cycle : Int) (year : Nat) (yearLt : year < 400)
    (marchYear_eq : date.marchYear = cycle * 400 + year) :
    date.dayNumber = cycle * cycleDays + yearStart year + date.marchDay - epochDay := by
  have cycle_eq : (cycle * 400 + year) / 400 = cycle := by omega
  have year_eq : ((cycle * 400 + year) % 400).toNat = year := by omega
  rw [dayNumber, marchYear_eq, cycle_eq, year_eq]

/-- A day number is that of the date it stands for. -/
@[simp]
theorem dayNumber_ofDayNumber (number : Int) : (ofDayNumber number).dayNumber = number := by
  obtain ⟨cycle, year, dayOfYear, yearLt, whole, short, eq⟩ := ofDayNumber_eq number
  have few : (5 * dayOfYear + 2) / 153 < 12 := by omega
  have march : (ofDayNumber number).marchYear = cycle * 400 + year ∧
      (ofDayNumber number).marchDay = dayOfYear := by
    rw [eq]
    split
    case isTrue early =>
      rw [(march_of_not_winter (by omega) _ _).1, (march_of_not_winter (by omega) _ _).2]
      omega
    case isFalse late =>
      rw [(march_of_winter (by omega) _ _).1, (march_of_winter (by omega) _ _).2]
      omega
  rw [dayNumber_eq cycle year yearLt march.1, march.2]
  omega

/-! ## Years in order -/

/-- The first day of a year. -/
def yearDay (year : Int) : Int :=
  dayNumber ⟨year, 1, 1⟩

theorem yearDay_eq (year : Int) :
    yearDay year = 365 * (year - 2000) + (year - 1) / 4 - (year - 1) / 100 + (year - 1) / 400
      - 484 := by
  have yearLt : ((year - 1) % 400).toNat < 400 := by omega
  obtain ⟨march, day⟩ := march_of_winter (show 1 ≤ 2 by decide) year 1
  rw [yearDay, dayNumber_eq ((year - 1) / 400) _ yearLt (by rw [march]; omega), day]
  simp only [yearStart, cycleDays, epochDay]
  omega

theorem yearDay_mono {first last : Int} (order : first ≤ last) : yearDay first ≤ yearDay last := by
  rw [yearDay_eq, yearDay_eq]
  omega

/-- The days of a year lie between its first day and that of the next. -/
theorem dayNumber_mem_year {date : Date} (valid : date.Valid) :
    yearDay date.year ≤ date.dayNumber ∧ date.dayNumber < yearDay (date.year + 1) := by
  obtain ⟨year, month, day⟩ := date
  obtain ⟨first, last, positive, short⟩ := valid
  simp only at first last positive short
  rw [yearDay_eq, yearDay_eq]
  rcases Nat.lt_or_ge 2 month with later | winter
  · obtain ⟨march, marchDay_eq⟩ := march_of_not_winter later year day
    rw [dayNumber_eq (year / 400) (year % 400).toNat (by omega)
      (by rw [march]; omega), marchDay_eq]
    simp only [yearStart, cycleDays, epochDay]
    have inYear : (153 * (month - 3) + 2) / 5 + (day - 1) < 306 := by
      interval_cases month <;> simp [monthLength] at short <;> omega
    omega
  · obtain ⟨march, marchDay_eq⟩ := march_of_winter winter year day
    rw [dayNumber_eq ((year - 1) / 400) ((year - 1) % 400).toNat (by omega)
      (by rw [march]; omega), marchDay_eq]
    simp only [yearStart, cycleDays, epochDay]
    interval_cases month
    · simp only [monthLength] at short
      omega
    · by_cases leap : isLeap year = true
      · simp only [monthLength, leap, ↓reduceIte] at short
        simp only [isLeap, Bool.and_eq_true, Bool.or_eq_true, decide_eq_true_eq, ne_eq] at leap
        omega
      · simp only [monthLength, leap, Bool.false_eq_true, ↓reduceIte] at short
        omega

/-- The years of days in order are in order. -/
theorem year_le_of_dayNumber_le {left right : Date} (validLeft : left.Valid)
    (validRight : right.Valid) (order : left.dayNumber ≤ right.dayNumber) :
    left.year ≤ right.year := by
  by_contra later
  have next : yearDay (right.year + 1) ≤ yearDay left.year := yearDay_mono (by omega)
  have start := (dayNumber_mem_year validLeft).1
  have stop := (dayNumber_mem_year validRight).2
  omega

end Date

namespace CivilTime

theorem valid_ofNanoseconds (number : Int) : (ofNanoseconds number).Valid := by
  refine ⟨Date.valid_ofDayNumber _, ?_⟩
  simp only [ofNanoseconds, dayLength]
  omega

/-- A number of nanoseconds is that of the time it stands for. -/
@[simp]
theorem nanoseconds_ofNanoseconds (number : Int) : (ofNanoseconds number).nanoseconds = number := by
  simp only [nanoseconds, ofNanoseconds, sinceMidnight, Date.dayNumber_ofDayNumber, dayLength]
  omega

theorem dayNumber_eq_div {time : CivilTime} (valid : time.Valid) :
    time.date.dayNumber = time.nanoseconds / dayLength := by
  obtain ⟨-, hour, minute, second, nanosecond⟩ := valid
  simp only [nanoseconds, sinceMidnight, dayLength]
  omega

/-- The years of instants in order are in order. -/
theorem year_le_of_nanoseconds_le {left right : CivilTime} (validLeft : left.Valid)
    (validRight : right.Valid) (order : left.nanoseconds ≤ right.nanoseconds) :
    left.date.year ≤ right.date.year := by
  refine Date.year_le_of_dayNumber_le validLeft.1 validRight.1 ?_
  rw [dayNumber_eq_div validLeft, dayNumber_eq_div validRight]
  exact Int.ediv_le_ediv (by decide) order

/-- The start of the year 2000. -/
def epoch : CivilTime := ⟨⟨2000, 1, 1⟩, 0, 0, 0, 0⟩

theorem valid_epoch : epoch.Valid := by decide

theorem nanoseconds_epoch : epoch.nanoseconds = 0 := by decide

/-- The time of a number of nanoseconds, if a span of years with the year 2000 in it covers a time
at least as far from the start of that year. -/
theorem within?_of_year {first last : Int} (before : first ≤ 2000) (after : 2000 ≤ last)
    {time : CivilTime} (valid : time.Valid)
    (covered : first ≤ time.date.year ∧ time.date.year ≤ last)
    {number : Int}
    (nearer : 0 ≤ number ∧ number ≤ time.nanoseconds ∨ time.nanoseconds ≤ number ∧ number ≤ 0) :
    within? first last number = some (ofNanoseconds number) := by
  have start : epoch.date.year = 2000 := rfl
  have ordered {left right : CivilTime} := @year_le_of_nanoseconds_le left right
  have validNumber := valid_ofNanoseconds number
  rw [within?, if_pos]
  rcases nearer with ⟨positive, less⟩ | ⟨more, negative⟩
  · have lower := ordered valid_epoch validNumber (by simpa [nanoseconds_epoch] using positive)
    have upper := ordered validNumber valid (by simpa using less)
    omega
  · have lower := ordered valid validNumber (by simpa using more)
    have upper := ordered validNumber valid_epoch (by simpa [nanoseconds_epoch] using negative)
    omega

end CivilTime
end SchemaWire
