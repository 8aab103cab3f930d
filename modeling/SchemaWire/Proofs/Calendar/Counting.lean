import SchemaWire.Proofs.Calendar.Civil
import Mathlib.Data.Int.Order.Basic

/-!
# Counting day by day

A calendar is known once it is known which day follows each day.  Counted in this way from the first
of January 2000, forward and back, every date of the calendar has a number, which is its day number,
and no two dates have one number.  So a number of nanoseconds is shown as one time only, and times
that come later by their parts, from the year down, have larger numbers.
-/

namespace SchemaWire
namespace Date

variable {date left right : Date} {number : Int}

/-! ## Months in order -/

/-- The first day of a month. -/
def monthDay (year : Int) (month : Nat) : Int :=
  dayNumber ⟨year, month, 1⟩

theorem dayNumber_eq_monthDay (positive : 1 ≤ date.day) :
    date.dayNumber = monthDay date.year date.month + (date.day - 1) := by
  simp only [dayNumber, monthDay, marchYear, marchDay]
  omega

theorem monthDay_of_winter {month : Nat} (winter : month ≤ 2) (year : Int) :
    monthDay year month = 365 * (year - 1) + (year - 1) / 4 - (year - 1) / 100 + (year - 1) / 400
      + (153 * (month + 9) + 2 : Nat) / 5 - epochDay := by
  obtain ⟨march, day⟩ := march_of_winter winter year 1
  rw [monthDay, dayNumber_eq ((year - 1) / 400) ((year - 1) % 400).toNat (by omega)
    (by rw [march]; omega), day]
  simp only [yearStart, cycleDays]
  omega

theorem monthDay_of_not_winter {month : Nat} (later : 2 < month) (year : Int) :
    monthDay year month = 365 * year + year / 4 - year / 100 + year / 400
      + (153 * (month - 3) + 2 : Nat) / 5 - epochDay := by
  obtain ⟨march, day⟩ := march_of_not_winter later year 1
  rw [monthDay, dayNumber_eq (year / 400) (year % 400).toNat (by omega)
    (by rw [march]; omega), day]
  simp only [yearStart, cycleDays]
  omega

theorem monthLength_february (year : Int) :
    (monthLength year 2 : Int) = 28 + (year / 4 - (year - 1) / 4) - (year / 100 - (year - 1) / 100)
      + (year / 400 - (year - 1) / 400) := by
  by_cases leap : isLeap year = true
  · simp only [monthLength, leap, ↓reduceIte]
    simp only [isLeap, Bool.and_eq_true, Bool.or_eq_true, decide_eq_true_eq, ne_eq] at leap
    omega
  · simp only [monthLength, leap, Bool.false_eq_true, ↓reduceIte]
    simp only [isLeap, Bool.and_eq_true, Bool.or_eq_true, decide_eq_true_eq, ne_eq] at leap
    omega

/-- A month begins when the one before it has ended. -/
theorem monthDay_succ {month : Nat} (first : 1 ≤ month) (last : month < 12) (year : Int) :
    monthDay year (month + 1) = monthDay year month + monthLength year month := by
  rcases Nat.lt_or_ge 2 month with later | winter
  · rw [monthDay_of_not_winter (by omega), monthDay_of_not_winter later]
    interval_cases month <;> simp only [monthLength] <;> omega
  · obtain rfl | rfl : month = 1 ∨ month = 2 := by omega
    · rw [monthDay_of_winter (by omega), monthDay_of_winter winter]
      simp only [monthLength]
      omega
    · rw [monthDay_of_not_winter (by omega), monthDay_of_winter winter, monthLength_february]
      omega

/-- A year begins when the last month of the one before it has ended. -/
theorem monthDay_next_year (year : Int) :
    monthDay (year + 1) 1 = monthDay year 12 + monthLength year 12 := by
  rw [monthDay_of_winter (by omega), monthDay_of_not_winter (by omega)]
  simp only [monthLength]
  omega

theorem monthDay_add_le {earlier later : Nat} (first : 1 ≤ earlier) (order : earlier < later)
    (last : later ≤ 12) (year : Int) :
    monthDay year earlier + monthLength year earlier ≤ monthDay year later := by
  induction later, order using Nat.le_induction with
  | base => rw [monthDay_succ first (by omega)]
  | succ later order ih =>
      have ended := ih (by omega)
      rw [monthDay_succ (by omega) (by omega)]
      omega

/-! ## Dates in order -/

/-- A date that comes earlier by its year, its month or its day has a smaller number. -/
theorem dayNumber_lt (validLeft : left.Valid) (validRight : right.Valid)
    (earlier : left.year < right.year ∨ left.year = right.year ∧
      (left.month < right.month ∨ left.month = right.month ∧ left.day < right.day)) :
    left.dayNumber < right.dayNumber := by
  obtain ⟨year, month, day⟩ := left
  obtain ⟨laterYear, laterMonth, laterDay⟩ := right
  obtain ⟨leftFirst, leftLast, leftPositive, leftShort⟩ := id validLeft
  obtain ⟨rightFirst, rightLast, rightPositive, rightShort⟩ := id validRight
  simp only at earlier leftFirst leftLast leftPositive leftShort rightFirst rightLast rightPositive
  rcases earlier with years | ⟨rfl, months | ⟨rfl, days⟩⟩
  · have ended := (dayNumber_mem_year validLeft).2
    have begun := (dayNumber_mem_year validRight).1
    have between : yearDay (year + 1) ≤ yearDay laterYear := yearDay_mono (by omega)
    simp only at ended begun
    omega
  · have between := monthDay_add_le leftFirst months rightLast year
    rw [dayNumber_eq_monthDay leftPositive, dayNumber_eq_monthDay rightPositive]
    simp only
    omega
  · rw [dayNumber_eq_monthDay leftPositive, dayNumber_eq_monthDay rightPositive]
    simp only
    omega

/-- No two dates have one number. -/
theorem eq_of_dayNumber_eq (validLeft : left.Valid) (validRight : right.Valid)
    (same : left.dayNumber = right.dayNumber) : left = right := by
  have unordered := mt (dayNumber_lt validLeft validRight) same.not_lt
  have reversed := mt (dayNumber_lt validRight validLeft) same.not_gt
  obtain ⟨year, month, day⟩ := left
  obtain ⟨otherYear, otherMonth, otherDay⟩ := right
  simp only at unordered reversed
  have years : year = otherYear := by omega
  have months : month = otherMonth := by omega
  have days : day = otherDay := by omega
  rw [years, months, days]

/-! ## The next day -/

/-- The day after a date. -/
def next (date : Date) : Date :=
  if date.day < monthLength date.year date.month then { date with day := date.day + 1 }
  else if date.month < 12 then ⟨date.year, date.month + 1, 1⟩
  else ⟨date.year + 1, 1, 1⟩

theorem one_le_monthLength (year : Int) (month : Nat) : 1 ≤ monthLength year month := by
  unfold monthLength
  split
  case h_1 => split <;> decide
  all_goals decide

theorem Valid.next (valid : date.Valid) : date.next.Valid := by
  obtain ⟨first, last, positive, short⟩ := valid
  unfold Date.next
  split
  case isTrue more => exact ⟨first, last, Nat.le_add_left 1 _, more⟩
  case isFalse =>
    split
    case isTrue inYear => exact ⟨Nat.le_add_left 1 _, inYear, Nat.le_refl 1, one_le_monthLength _ _⟩
    case isFalse => exact ⟨Nat.le_refl 1, by simp, Nat.le_refl 1, one_le_monthLength _ _⟩

theorem dayNumber_next (valid : date.Valid) : date.next.dayNumber = date.dayNumber + 1 := by
  obtain ⟨year, month, day⟩ := date
  obtain ⟨first, last, positive, short⟩ := valid
  simp only at first last positive short
  have counted := @dayNumber_eq_monthDay ⟨year, month, day⟩ positive
  rw [counted, next]
  split
  case isTrue =>
    rw [dayNumber_eq_monthDay (Nat.le_add_left 1 day)]
    simp only
    omega
  case isFalse ended =>
    simp only at ended ⊢
    split
    case isTrue inYear =>
      rw [← monthDay, monthDay_succ first inYear]
      omega
    case isFalse =>
      obtain rfl : month = 12 := by omega
      rw [← monthDay, monthDay_next_year]
      omega

/-- A date is a number of days after the first of January 2000: it is that day, or the day after one
with the number before, or a day of the calendar before one with the number after. -/
inductive Counted : Date → Int → Prop where
  | start : Counted ⟨2000, 1, 1⟩ 0
  | next {date : Date} {number : Int} (counted : Counted date number) :
      Counted date.next (number + 1)
  | previous {date : Date} {number : Int} (valid : date.Valid)
      (counted : Counted date.next (number + 1)) : Counted date number

theorem Counted.sound (counted : Counted date number) : date.Valid ∧ date.dayNumber = number := by
  induction counted with
  | start => decide
  | next _ ih => exact ⟨ih.1.next, by rw [dayNumber_next ih.1, ih.2]⟩
  | @previous date number valid _ ih =>
      have after := ih.2
      rw [dayNumber_next valid] at after
      exact ⟨valid, by omega⟩

theorem next_ofDayNumber (number : Int) : (ofDayNumber number).next = ofDayNumber (number + 1) := by
  have valid := valid_ofDayNumber number
  refine eq_of_dayNumber_eq valid.next (valid_ofDayNumber _) ?_
  rw [dayNumber_next valid, dayNumber_ofDayNumber, dayNumber_ofDayNumber]

theorem counted_ofDayNumber (number : Int) : Counted (ofDayNumber number) number := by
  induction number using Int.induction_on with
  | zero => exact .start
  | succ number ih =>
      rw [← next_ofDayNumber]
      exact ih.next
  | pred number ih =>
      refine .previous (valid_ofDayNumber _) ?_
      rwa [next_ofDayNumber, Int.sub_add_cancel]

/-- Counting gives every date of the calendar its day number. -/
theorem counted_iff : Counted date number ↔ date.Valid ∧ date.dayNumber = number := by
  refine ⟨Counted.sound, ?_⟩
  rintro ⟨valid, rfl⟩
  have same : ofDayNumber date.dayNumber = date :=
    eq_of_dayNumber_eq (valid_ofDayNumber _) valid (dayNumber_ofDayNumber _)
  have counted := counted_ofDayNumber date.dayNumber
  rwa [same] at counted

end Date

namespace CivilTime

variable {time left right : CivilTime} {number : Int}

/-- A time is shown a number of nanoseconds after the start of the year 2000: its date is some
number of days after the first one, and what is left has passed since midnight. -/
def Shows (time : CivilTime) (number : Int) : Prop :=
  time.Valid ∧ ∃ days, time.date.Counted days ∧ number = days * dayLength + time.sinceMidnight

theorem shows_iff : time.Shows number ↔ time.Valid ∧ time.nanoseconds = number := by
  constructor
  · rintro ⟨valid, days, counted, rfl⟩
    rw [← (Date.counted_iff.1 counted).2]
    exact ⟨valid, rfl⟩
  · rintro ⟨valid, rfl⟩
    exact ⟨valid, _, Date.counted_iff.2 ⟨valid.1, rfl⟩, rfl⟩

theorem sinceMidnight_eq_mod (valid : time.Valid) :
    time.sinceMidnight = time.nanoseconds % dayLength := by
  obtain ⟨-, hour, minute, second, nanosecond⟩ := valid
  simp only [nanoseconds, sinceMidnight, dayLength]
  omega

/-- No two times are shown at once. -/
theorem eq_of_nanoseconds_eq (validLeft : left.Valid) (validRight : right.Valid)
    (same : left.nanoseconds = right.nanoseconds) : left = right := by
  have days : left.date.dayNumber = right.date.dayNumber := by
    rw [dayNumber_eq_div validLeft, dayNumber_eq_div validRight, same]
  have rest : (left.sinceMidnight : Int) = right.sinceMidnight := by
    rw [sinceMidnight_eq_mod validLeft, sinceMidnight_eq_mod validRight, same]
  have dates := Date.eq_of_dayNumber_eq validLeft.1 validRight.1 days
  obtain ⟨date, hour, minute, second, nanosecond⟩ := left
  obtain ⟨otherDate, otherHour, otherMinute, otherSecond, otherNanosecond⟩ := right
  obtain ⟨-, leftHour, leftMinute, leftSecond, leftNanosecond⟩ := validLeft
  obtain ⟨-, rightHour, rightMinute, rightSecond, rightNanosecond⟩ := validRight
  simp only [sinceMidnight] at *
  subst dates
  simp only [mk.injEq, true_and]
  omega

theorem ofNanoseconds_nanoseconds (valid : time.Valid) : ofNanoseconds time.nanoseconds = time :=
  eq_of_nanoseconds_eq (valid_ofNanoseconds _) valid (nanoseconds_ofNanoseconds _)

/-- The parts of a time from the year down. -/
def parts (time : CivilTime) : List Int :=
  [time.date.year, time.date.month, time.date.day, time.hour, time.minute, time.second,
    time.nanosecond]

/-- A time comes before another one if it is smaller in the first part in which they differ. -/
def Precedes (left right : CivilTime) : Prop :=
  List.Lex (· < ·) left.parts right.parts

/-- Times that come one before the other are shown one before the other. -/
theorem nanoseconds_lt_of_precedes (validLeft : left.Valid) (validRight : right.Valid)
    (earlier : left.Precedes right) : left.nanoseconds < right.nanoseconds := by
  have dates := Date.dayNumber_lt validLeft.1 validRight.1
  obtain ⟨⟨year, month, day⟩, hour, minute, second, nanosecond⟩ := left
  obtain ⟨⟨otherYear, otherMonth, otherDay⟩, otherHour, otherMinute, otherSecond,
    otherNanosecond⟩ := right
  obtain ⟨-, leftHour, leftMinute, leftSecond, leftNanosecond⟩ := validLeft
  obtain ⟨-, rightHour, rightMinute, rightSecond, rightNanosecond⟩ := validRight
  simp only [Precedes, parts, List.cons_lex_cons_iff, List.not_lex_nil, and_false, or_false,
    Nat.cast_lt, Nat.cast_inj] at earlier
  simp only [nanoseconds, sinceMidnight, dayLength] at *
  rcases earlier with years | ⟨rfl, months | ⟨rfl, days | ⟨rfl, clock⟩⟩⟩
  · have before := dates (.inl years)
    omega
  · have before := dates (.inr ⟨rfl, .inl months⟩)
    omega
  · have before := dates (.inr ⟨rfl, .inr ⟨rfl, days⟩⟩)
    omega
  · omega

end CivilTime
end SchemaWire
