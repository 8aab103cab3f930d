import SchemaWire.Codec
import SchemaWire.Proofs.Calendar.Civil

/-!
# What the wire keeps of a value

The wire keeps everything of a value but the shares of a microsecond in its spans and timestamps,
and which sort of value named a member of an enumeration.
-/

namespace SchemaWire

namespace Span

/-- The whole microseconds of a span reach no further than the span itself. -/
theorem microseconds_nearer (nanoseconds : Int) :
    0 ≤ microseconds nanoseconds * 1000 ∧ microseconds nanoseconds * 1000 ≤ nanoseconds ∨
      nanoseconds ≤ microseconds nanoseconds * 1000 ∧ microseconds nanoseconds * 1000 ≤ 0 := by
  rw [microseconds]
  rcases Int.le_total 0 nanoseconds with positive | negative
  · rw [Int.tdiv_eq_ediv_of_nonneg positive]
    omega
  · obtain ⟨length, rfl⟩ : ∃ length, nanoseconds = -length := ⟨-nanoseconds, (neg_neg _).symm⟩
    rw [Int.neg_tdiv, Int.tdiv_eq_ediv_of_nonneg (by omega)]
    omega

@[simp]
theorem microseconds_mul (number : Int) : microseconds (number * 1000) = number :=
  Int.mul_tdiv_cancel number (by decide)

end Span

/-- A type of timestamp covers a time of the calendar in one of its years. -/
def TimestampKind.Covers (kind : TimestampKind) (time : CivilTime) : Prop :=
  time.Valid ∧ kind.years.1 ≤ time.date.year ∧ time.date.year ≤ kind.years.2

instance (kind : TimestampKind) (time : CivilTime) : Decidable (kind.Covers time) := by
  unfold TimestampKind.Covers
  infer_instance

/-- A time no further from the start of the year 2000 than one that is covered is covered too. -/
theorem TimestampKind.time?_of_covers {kind : TimestampKind} {time : CivilTime}
    (covered : kind.Covers time) {number : Int}
    (nearer : 0 ≤ number ∧ number ≤ time.nanoseconds ∨ time.nanoseconds ≤ number ∧ number ≤ 0) :
    kind.time? number = some (CivilTime.ofNanoseconds number) := by
  obtain ⟨valid, inside⟩ := covered
  have wide : kind.years.1 ≤ 2000 ∧ 2000 ≤ kind.years.2 := by cases kind <;> decide
  exact CivilTime.within?_of_year wide.1 wide.2 valid inside nearer

namespace Value

mutual

/-- The values within a value that hold no others. -/
def leaves : Value → List Value
  | .array elements => elementLeaves elements
  | .set slots | .tuple slots => slotLeaves slots
  | leaf => [leaf]

/-- The leaves of elements. -/
def elementLeaves : List Value → List Value
  | [] => []
  | element :: elements => leaves element ++ elementLeaves elements

/-- The leaves of slots. -/
def slotLeaves : List (Option Value) → List Value
  | [] => []
  | none :: slots => slotLeaves slots
  | some value :: slots => leaves value ++ slotLeaves slots

end

/-- A timestamp that its type covers, an instant being seen in universal time; and any other
value. -/
def Covered : Value → Prop
  | .datetime time offset =>
      TimestampKind.datetime.Covers (CivilTime.ofNanoseconds (instant time offset))
  | .localDatetime time => TimestampKind.localDatetime.Covers time
  | .wideDatetime time => TimestampKind.wideDatetime.Covers time
  | _ => True

instance (value : Value) : Decidable value.Covered := by
  unfold Covered
  split <;> infer_instance

theorem covered_of_leaves {value : Value} (covered : ∀ leaf ∈ value.leaves, leaf.Covered) :
    value.Covered := by
  cases value with
  | datetime time offset => exact covered _ List.mem_cons_self
  | localDatetime time => exact covered _ List.mem_cons_self
  | wideDatetime time => exact covered _ List.mem_cons_self
  | _ => trivial

theorem covered_leaves_duration (nanoseconds : Int) :
    ∀ leaf ∈ (duration nanoseconds).leaves, leaf.Covered := by
  simp [leaves, Covered]

theorem mem_leaves_of_mem {element leaf : Value} {elements : List Value}
    (member : element ∈ elements) (inside : leaf ∈ element.leaves) :
    leaf ∈ elementLeaves elements := by
  induction elements with
  | nil => simp at member
  | cons head elements ih =>
      rw [elementLeaves, List.mem_append]
      rcases List.mem_cons.1 member with rfl | later
      · exact .inl inside
      · exact .inr (ih later)

end Value

mutual

/-- What a codec makes of a value by writing and reading it.  Scalars are kept, except that spans
and timestamps are cut to whole microseconds from the start of the year 2000; a text that names a
member of an enumeration comes back as the member. -/
inductive Settles : Codec → Value → Value → Prop where
  | scalar {type : Uuid} {kind : ScalarKind} {value : Value}
      (timeless : ∀ nanoseconds, value ≠ .duration nanoseconds) :
      Settles (.scalar type kind) value value
  | duration {type : Uuid} {kind : ScalarKind} {nanoseconds : Int} :
      Settles (.scalar type kind) (.duration nanoseconds)
        (.duration (Span.microseconds nanoseconds * 1000))
  | datetime {type : Uuid} {inner : Codec} {time shown : CivilTime} {offset shift : Int}
      (cut : Value.instant shown shift = Span.microseconds (Value.instant time offset) * 1000) :
      Settles (.timestamp type inner .datetime) (.datetime time offset) (.datetime shown shift)
  | localDatetime {type : Uuid} {inner : Codec} {time shown : CivilTime} (valid : shown.Valid)
      (cut : shown.nanoseconds = Span.microseconds time.nanoseconds * 1000) :
      Settles (.timestamp type inner .localDatetime) (.localDatetime time) (.localDatetime shown)
  | wideDatetime {type : Uuid} {inner : Codec} {time shown : CivilTime} (valid : shown.Valid)
      (cut : shown.nanoseconds = Span.microseconds time.nanoseconds * 1000) :
      Settles (.timestamp type inner .wideDatetime) (.wideDatetime time) (.wideDatetime shown)
  | member {type : Uuid} {members : List String} {name : String} :
      Settles (.enumeration type members) (.member name) (.member name)
  | name {type : Uuid} {members : List String} {name : String} :
      Settles (.enumeration type members) (.text name) (.member name)
  | array {type : Uuid} {element : Codec} {values decoded : List Value}
      (each : SettlesEach element values decoded) :
      Settles (.array type element) (.array values) (.array decoded)
  | tuple {type : Uuid} {elements : List Codec} {slots decoded : List (Option Value)}
      (each : SettlesSlots elements slots decoded) :
      Settles (.tuple type elements) (.tuple slots) (.tuple decoded)

/-- What a codec makes of the elements of an array. -/
inductive SettlesEach : Codec → List Value → List Value → Prop where
  | nil {codec : Codec} : SettlesEach codec [] []
  | cons {codec : Codec} {value settled : Value} {values decoded : List Value}
      (head : Settles codec value settled) (rest : SettlesEach codec values decoded) :
      SettlesEach codec (value :: values) (settled :: decoded)

/-- What codecs make of the slots of a tuple. -/
inductive SettlesSlots : List Codec → List (Option Value) → List (Option Value) → Prop where
  | nil : SettlesSlots [] [] []
  | absent {codec : Codec} {codecs : List Codec} {slots decoded : List (Option Value)}
      (rest : SettlesSlots codecs slots decoded) :
      SettlesSlots (codec :: codecs) (none :: slots) (none :: decoded)
  | present {codec : Codec} {codecs : List Codec} {value settled : Value}
      {slots decoded : List (Option Value)} (head : Settles codec value settled)
      (rest : SettlesSlots codecs slots decoded) :
      SettlesSlots (codec :: codecs) (some value :: slots) (some settled :: decoded)

end

/-- A span settles as a span whatever its codec. -/
theorem Settles.eq_of_duration {codec : Codec} {nanoseconds : Int} {decoded : Value}
    (settled : Settles codec (.duration nanoseconds) decoded) :
    decoded = .duration (Span.microseconds nanoseconds * 1000) := by
  cases settled with
  | scalar timeless => exact absurd rfl (timeless nanoseconds)
  | duration => rfl

end SchemaWire
