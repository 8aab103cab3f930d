import SchemaWire.Codec.Base
import SchemaWire.Proofs.Calendar.Counting
import SchemaWire.Proofs.Codec.Canonical
import SchemaWire.Proofs.Wire.Delimiting

/-!
# Timestamps as counts of microseconds

A timestamp over a scalar of microseconds is read from every count whose time the type covers, and
from no other, whatever stands in the eight bytes after the count.  It is written as the count that
the time has once it is cut to whole microseconds toward the start of the year 2000, so what was
written is read back as the time that was cut.  An instant is written as it is, on whatever clock it
was seen, but read in universal time; if its year there lies outside the calendar, then what was
written is not read back.
-/

namespace SchemaWire

open Reads

/-- The codec of a type of timestamp over a scalar of microseconds. -/
def Codec.counted (type inner : Uuid) (kind : TimestampKind) : Codec :=
  .timestamp type (.scalar inner .duration) kind

theorem Base.codec?_datetime :
    codec? datetime = some (.counted datetime duration .datetime) := rfl

/-! ## Times that a type shows -/

namespace TimestampKind

variable {kind : TimestampKind} {time : CivilTime} {number : Int}

/-- A type of timestamp shows a time, in a year that it covers, for a number of nanoseconds. -/
def Shows (kind : TimestampKind) (time : CivilTime) (number : Int) : Prop :=
  (kind.years.1 ≤ time.date.year ∧ time.date.year ≤ kind.years.2) ∧ time.Shows number

theorem shows_iff : kind.Shows time number ↔ kind.Covers time ∧ time.nanoseconds = number := by
  rw [Shows, CivilTime.shows_iff, Covers]
  tauto

theorem time?_eq_some_iff : kind.time? number = some time ↔ kind.Shows time number := by
  rw [shows_iff, time?, CivilTime.within?, Covers]
  constructor
  · intro found
    split at found
    case isFalse => simp at found
    case isTrue inside =>
      obtain rfl := Option.some.inj found
      exact ⟨⟨CivilTime.valid_ofNanoseconds number, inside⟩,
        CivilTime.nanoseconds_ofNanoseconds number⟩
  · rintro ⟨⟨valid, inside⟩, rfl⟩
    rw [CivilTime.ofNanoseconds_nanoseconds valid, if_pos inside]

theorem ofInner_of_shows (shown : kind.Shows time number) :
    kind.ofInner (.duration number) = .ok (kind.valueOf time) := by
  rw [ofInner, time?_eq_some_iff.2 shown]

theorem ofInner_of_not_shows (unseen : ¬ ∃ time, kind.Shows time number) :
    kind.ofInner (.duration number) = .error (.decode (.timestampRange kind number)) := by
  have missing : kind.time? number = none := by
    rw [Option.eq_none_iff_forall_ne_some]
    intro time found
    exact unseen ⟨time, time?_eq_some_iff.1 found⟩
  rw [ofInner, missing]

/-- Cutting a number of nanoseconds to whole microseconds leaves it among the covered years. -/
theorem exists_shows_cut (shown : kind.Shows time number) :
    ∃ cut, kind.Shows cut (Span.microseconds number * 1000) := by
  obtain ⟨covered, rfl⟩ := shows_iff.1 shown
  exact ⟨_, time?_eq_some_iff.1 (time?_of_covers covered (Span.microseconds_nearer _))⟩

/-- Half a million years are less than this many nanoseconds. -/
theorem nanoseconds_bounds (covered : kind.Covers time) :
    -9000000000000000000000 < time.nanoseconds ∧ time.nanoseconds < 9000000000000000000000 := by
  obtain ⟨valid, early, late⟩ := covered
  have widest : -262143 ≤ kind.years.1 ∧ kind.years.2 ≤ 262142 := by cases kind <;> decide
  obtain ⟨begun, ended⟩ := Date.dayNumber_mem_year valid.1
  have first : Date.yearDay (-262143) ≤ Date.yearDay time.date.year := Date.yearDay_mono (by omega)
  have last : Date.yearDay (time.date.year + 1) ≤ Date.yearDay 262143 :=
    Date.yearDay_mono (by omega)
  have days := CivilTime.dayNumber_eq_div valid
  rw [Date.yearDay_eq (-262143)] at first
  rw [Date.yearDay_eq 262143] at last
  rw [CivilTime.dayLength] at days
  omega

/-- Sixty-four bits hold the microseconds of so many nanoseconds and some more. -/
theorem exists_count_of_bounds (small : -9200000000000000000000 < number)
    (large : number < 9200000000000000000000) :
    ∃ count : Int64, count.toInt = Span.microseconds number := by
  have nearer := Span.microseconds_nearer number
  exact ⟨Int64.ofInt _, Int64.toInt_ofInt_of_le (by omega) (by omega)⟩

/-- Sixty-four bits hold the microseconds of every time that a type covers. -/
theorem exists_count (covered : kind.Covers time) :
    ∃ count : Int64, count.toInt = Span.microseconds time.nanoseconds := by
  have bounds := nanoseconds_bounds covered
  exact exists_count_of_bounds (by omega) (by omega)

theorem toInner_valueOf_eq (kind : TimestampKind) (time : CivilTime) :
    ∃ number, kind.toInner (kind.valueOf time) = .ok (.duration number) ∧
      Span.microseconds number = Span.microseconds time.nanoseconds := by
  cases kind with
  | datetime => exact ⟨_, rfl, by simp [Value.instant]⟩
  | localDatetime => exact ⟨_, rfl, rfl⟩
  | wideDatetime => exact ⟨_, rfl, Span.microseconds_mul _⟩

end TimestampKind

/-! ## Reading and writing counts -/

theorem durationWord_eq_ok_iff {type : Uuid} {nanoseconds : Int} {count : Int64} :
    durationWord type nanoseconds = .ok count ↔ count.toInt = Span.microseconds nanoseconds := by
  constructor
  · exact durationWord_eq_ok
  · intro same
    have fits := durationWord_microseconds type count
    rwa [durationWord, Span.microseconds_mul, same] at fits

theorem run_whole_ofExcept {α β : Type} {read : Reads α} {bytes : List UInt8} {item : α}
    (taken : Takes read bytes item) (result : α → Except Fault β) :
    (whole (do let item ← read; Reads.ofExcept (result item))).run bytes = result item := by
  cases done : result item with
  | ok value => exact (taken.then (takes_ofExcept done)).takesAll.run_whole
  | error fault =>
      have failed : (do let item ← read; Reads.ofExcept (result item)) (Cursor.ofBytes bytes) =
          .error fault ⟨bytes.reverse ++ [], []⟩ := by
        rw [Cursor.ofBytes, Fallible.bind_apply_ok (taken.takesAll []), done]
        rfl
      exact whole_run_of_error failed

namespace Codec

variable {type inner : Uuid} {kind : TimestampKind} {count : Int64} {legacy : List UInt8}
  {time : CivilTime} {number : Int} {value : Value}

theorem decode_counted (eight : legacy.length = 8) :
    (counted type inner kind).decode (some (spanBytes count legacy)) =
      (kind.ofInner (.duration (count.toInt * 1000))).map some := by
  have ran := run_whole_ofExcept (@takes_span count legacy eight) kind.ofInner
  rw [decode, counted, read, read, ran]
  cases kind.ofInner (.duration (count.toInt * 1000)) <;> rfl

theorem encode_counted (held : kind.toInner value = .ok (.duration number)) :
    (counted type inner kind).encode (some value) =
      (durationWord inner number).map (spanBytes · noLegacy) := by
  cases word : durationWord inner number with
  | ok count => exact Writes.run_of_emits (Writes.emits_ofExcept_bind held (emits_span word))
  | error fault =>
      rw [encode, writeOptional, counted, write, held]
      change (ScalarKind.write .duration inner (.duration number)).run = _
      rw [ScalarKind.write, word]
      rfl

theorem decode_of_shows (eight : legacy.length = 8)
    (shown : kind.Shows time (count.toInt * 1000)) :
    (counted type inner kind).decode (some (spanBytes count legacy)) =
      .ok (some (kind.valueOf time)) := by
  rw [decode_counted eight, TimestampKind.ofInner_of_shows shown]
  rfl

theorem decode_of_not_shows (eight : legacy.length = 8)
    (unseen : ¬ ∃ time, kind.Shows time (count.toInt * 1000)) :
    (counted type inner kind).decode (some (spanBytes count legacy)) =
      .error (.decode (.timestampRange kind (count.toInt * 1000))) := by
  rw [decode_counted eight, TimestampKind.ofInner_of_not_shows unseen]
  rfl

theorem encode_valueOf (held : count.toInt = Span.microseconds time.nanoseconds) :
    (counted type inner kind).encode (some (kind.valueOf time)) =
      .ok (spanBytes count noLegacy) := by
  obtain ⟨number, shown, same⟩ := kind.toInner_valueOf_eq time
  rw [encode_counted shown, durationWord_eq_ok_iff.2 (held.trans same.symm)]
  rfl

/-! ## Counts and the calendar -/

/-- A timestamp is read from a count exactly if its type shows a time for the count, whatever the
eight bytes after it, and then it is that time and is written as the count.  Every time that the
type covers is written, as the count of its microseconds cut toward the start of the year 2000, and
is read back as the time of that count.  Of two times the earlier one has no larger count. -/
theorem counted_exact (type inner : Uuid) (kind : TimestampKind) :
    (∀ (count : Int64) (legacy : List UInt8), legacy.length = 8 →
      ((∃ result, (counted type inner kind).decode (some (spanBytes count legacy)) = .ok result) ↔
        ∃ time, kind.Shows time (count.toInt * 1000)) ∧
      ∀ time, kind.Shows time (count.toInt * 1000) →
        (counted type inner kind).decode (some (spanBytes count legacy)) =
            .ok (some (kind.valueOf time)) ∧
          (counted type inner kind).encode (some (kind.valueOf time)) =
            .ok (spanBytes count noLegacy)) ∧
    (∀ time, kind.Covers time →
      ∃ (number : Int) (count : Int64) (cut : CivilTime),
        kind.Shows time number ∧ count.toInt = number.tdiv 1000 ∧
        kind.Shows cut (count.toInt * 1000) ∧
        (counted type inner kind).encode (some (kind.valueOf time)) =
          .ok (spanBytes count noLegacy) ∧
        (counted type inner kind).decode (some (spanBytes count noLegacy)) =
          .ok (some (kind.valueOf cut))) ∧
    ∀ left right, kind.Covers left → kind.Covers right → left.Precedes right →
      ∃ earlier later : Int64, earlier.toInt ≤ later.toInt ∧
        (counted type inner kind).encode (some (kind.valueOf left)) =
          .ok (spanBytes earlier noLegacy) ∧
        (counted type inner kind).encode (some (kind.valueOf right)) =
          .ok (spanBytes later noLegacy) := by
  refine ⟨?_, ?_, ?_⟩
  · intro count legacy eight
    refine ⟨⟨?_, ?_⟩, ?_⟩
    · rintro ⟨result, decoded⟩
      by_contra unseen
      simp [decode_of_not_shows eight unseen] at decoded
    · rintro ⟨time, shown⟩
      exact ⟨_, decode_of_shows eight shown⟩
    · intro time shown
      refine ⟨decode_of_shows eight shown, encode_valueOf ?_⟩
      rw [(TimestampKind.shows_iff.1 shown).2, Span.microseconds_mul]
  · intro time covered
    obtain ⟨count, held⟩ := TimestampKind.exists_count covered
    have shown : kind.Shows time time.nanoseconds := TimestampKind.shows_iff.2 ⟨covered, rfl⟩
    obtain ⟨cut, shownCut⟩ := TimestampKind.exists_shows_cut shown
    rw [← held] at shownCut
    exact ⟨_, count, cut, shown, held, shownCut, encode_valueOf held, decode_of_shows rfl shownCut⟩
  · intro left right coveredLeft coveredRight order
    obtain ⟨earlier, heldLeft⟩ := TimestampKind.exists_count coveredLeft
    obtain ⟨later, heldRight⟩ := TimestampKind.exists_count coveredRight
    have before := CivilTime.nanoseconds_lt_of_precedes coveredLeft.1 coveredRight.1 order
    refine ⟨earlier, later, ?_, encode_valueOf heldLeft, encode_valueOf heldRight⟩
    rw [heldLeft, heldRight]
    exact Int.tdiv_le_tdiv (by decide) before.le

/-- Half a microsecond before noon of a leap day before the year zero. -/
def leapSample : CivilTime := ⟨⟨-4, 2, 29⟩, 11, 59, 59, 999999500⟩

/-- Noon of that day. -/
def noonSample : CivilTime := ⟨⟨-4, 2, 29⟩, 12, 0, 0, 0⟩

theorem counted_exact_sample :
    TimestampKind.wideDatetime.Covers leapSample ∧ leapSample.Precedes noonSample ∧
      (counted (.ofLow 1) (.ofLow 2) .wideDatetime).decode
          (some (spanBytes (-63234993600000000) [1, 2, 3, 4, 5, 6, 7, 8])) =
        .ok (some (.wideDatetime noonSample)) ∧
      (∃ count : Int64,
        (counted (.ofLow 1) (.ofLow 2) .wideDatetime).encode (some (.wideDatetime leapSample)) =
          .ok (spanBytes count noLegacy)) ∧
      ∃ earlier later : Int64, earlier.toInt ≤ later.toInt ∧
        (counted (.ofLow 1) (.ofLow 2) .wideDatetime).encode (some (.wideDatetime leapSample)) =
          .ok (spanBytes earlier noLegacy) ∧
        (counted (.ofLow 1) (.ofLow 2) .wideDatetime).encode (some (.wideDatetime noonSample)) =
          .ok (spanBytes later noLegacy) := by
  obtain ⟨counts, times, order⟩ := counted_exact (.ofLow 1) (.ofLow 2) .wideDatetime
  have early : TimestampKind.wideDatetime.Covers leapSample := by decide
  have noon : TimestampKind.wideDatetime.Covers noonSample := by decide
  have shown : TimestampKind.wideDatetime.Shows noonSample
      ((-63234993600000000 : Int64).toInt * 1000) :=
    TimestampKind.shows_iff.2 ⟨noon, by decide⟩
  have precedes : leapSample.Precedes noonSample := .cons (.cons (.cons (.rel (by decide))))
  obtain ⟨_, count, _, _, _, _, written, _⟩ := times leapSample early
  obtain ⟨-, read⟩ := counts (-63234993600000000) [1, 2, 3, 4, 5, 6, 7, 8] rfl
  have ordered := order leapSample noonSample early noon precedes
  exact ⟨early, precedes, (read noonSample shown).1, ⟨count, written⟩, ordered⟩

/-! ## Instants seen on other clocks -/

/-- What is written for an instant is read back, as the instant cut to whole microseconds toward
the start of the year 2000 and in universal time, exactly if the calendar shows the cut instant, as
it does if it shows the instant itself; and otherwise the read fails for that reason. -/
theorem instant_read_back (type inner : Uuid) (time : CivilTime) (offset : Int)
    (bytes : List UInt8)
    (written : (counted type inner .datetime).encode (some (.datetime time offset)) = .ok bytes) :
    (∀ shown, TimestampKind.datetime.Shows shown ((Value.instant time offset).tdiv 1000 * 1000) →
      (counted type inner .datetime).decode (some bytes) = .ok (some (.datetime shown 0))) ∧
    ((¬ ∃ shown,
        TimestampKind.datetime.Shows shown ((Value.instant time offset).tdiv 1000 * 1000)) →
      (counted type inner .datetime).decode (some bytes) =
        .error (.decode (.timestampRange .datetime
          ((Value.instant time offset).tdiv 1000 * 1000)))) ∧
    ∀ seen, TimestampKind.datetime.Shows seen (Value.instant time offset) →
      ∃ shown,
        TimestampKind.datetime.Shows shown ((Value.instant time offset).tdiv 1000 * 1000) := by
  have held : TimestampKind.datetime.toInner (.datetime time offset) =
      .ok (.duration (Value.instant time offset)) := rfl
  rw [encode_counted held] at written
  cases word : durationWord inner (Value.instant time offset) with
  | error fault =>
      rw [word] at written
      cases written
  | ok count =>
      rw [word] at written
      obtain rfl : spanBytes count noLegacy = bytes := Except.ok.inj written
      have counts : (Value.instant time offset).tdiv 1000 = count.toInt :=
        (durationWord_eq_ok word).symm
      rw [counts]
      refine ⟨?_, decode_of_not_shows rfl, ?_⟩
      · intro shown covered
        exact decode_of_shows rfl covered
      · intro seen shown
        rw [← counts]
        exact TimestampKind.exists_shows_cut shown

/-- Half a microsecond before the calendar begins, on a clock that is an hour ahead. -/
def earlySample : CivilTime := ⟨⟨-9999, 1, 1⟩, 0, 59, 59, 999999500⟩

/-- The start of the calendar. -/
def firstSample : CivilTime := ⟨⟨-9999, 1, 1⟩, 0, 0, 0, 0⟩

theorem instant_read_back_sample :
    ∃ bytes,
      (counted Base.datetime Base.duration .datetime).encode (some (.datetime earlySample 3600)) =
        .ok bytes ∧
      (counted Base.datetime Base.duration .datetime).decode (some bytes) =
        .ok (some (.datetime firstSample 0)) := by
  have shown : TimestampKind.datetime.Shows firstSample
      ((Value.instant earlySample 3600).tdiv 1000 * 1000) :=
    TimestampKind.shows_iff.2 ⟨by decide, by decide⟩
  obtain ⟨read, -⟩ := instant_read_back Base.datetime Base.duration earlySample 3600 _ rfl
  exact ⟨_, rfl, read firstSample shown⟩

/-- An hour before the calendar ends, on a clock that is an hour behind. -/
def lateSample : CivilTime := ⟨⟨9999, 12, 31⟩, 23, 0, 0, 0⟩

/-- An instant may be written whose time, in a year of the calendar on the clock that showed it, is
in no year of the calendar in universal time; and then it is not read back. -/
theorem instant_not_read_back_of_late :
    TimestampKind.datetime.Covers lateSample ∧
      ∃ codec, Base.codec? Base.datetime = some codec ∧
        ∃ bytes, codec.encode (some (.datetime lateSample (-3600))) = .ok bytes ∧
          ∀ result, codec.decode (some bytes) ≠ .ok result := by
  refine ⟨by decide, _, Base.codec?_datetime,
    [3, 128, 231, 11, 145, 59, 128, 0, 0, 0, 0, 0, 0, 0, 0, 0], rfl, ?_⟩
  intro result decoded
  cases decoded

end Codec
end SchemaWire
