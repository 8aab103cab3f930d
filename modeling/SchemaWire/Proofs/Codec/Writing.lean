import SchemaWire.Proofs.Codec.Timestamp
import SchemaWire.Proofs.Wire.Deciding

/-!
# Values that codecs write

A codec writes the values of its type and refuses all others, and for a refusal it blames the value
or its type.  How many bytes it writes is known from the value alone, so it is also known which
elements have a length that can be written before them.
-/

namespace SchemaWire

open Writes

namespace Value

mutual

/-- How many bytes a value takes on the wire. -/
def wireSize : Value → Nat
  | .bool _ => 1
  | .int16 _ => 2
  | .int32 _ | .float32 _ => 4
  | .int64 _ | .float64 _ => 8
  | .uuid _ | .duration _ | .datetime _ _ | .localDatetime _ | .wideDatetime _ => 16
  | .text content | .member content => (Utf8.encode content).length
  | .json content => 1 + (Utf8.encode content).length
  | .bytes content => content.length
  | .set _ => 0
  | .array elements => (if elements.isEmpty then 12 else 20) + elementsSize elements
  | .tuple slots => 4 + slotsSize slots

/-- How many bytes elements take after their lengths. -/
def elementsSize : List Value → Nat
  | [] => 0
  | element :: elements => 4 + wireSize element + elementsSize elements

/-- How many bytes slots take after four bytes each and their lengths. -/
def slotsSize : List (Option Value) → Nat
  | [] => 0
  | none :: slots => 8 + slotsSize slots
  | some value :: slots => 8 + wireSize value + slotsSize slots

end

theorem elementsSize_eq (elements : List Value) :
    elementsSize elements = (elements.map fun element => 4 + element.wireSize).sum := by
  induction elements with
  | nil => rfl
  | cons element elements ih => rw [elementsSize, ih, List.map_cons, List.sum_cons]

/-- A span whose whole microseconds sixty-four bits hold, and any other value. -/
def Counted : Value → Prop
  | .duration nanoseconds => ∃ count : Int64, count.toInt = Span.microseconds nanoseconds
  | _ => True

/-- A value that the calendar of its sort can tell.  Clocks run less than twenty-six hours ahead of
universal time or behind it, and those of the wide calendar know leap seconds. -/
def Told : Value → Prop
  | .datetime time offset =>
      TimestampKind.datetime.Covers time ∧ -93600 < offset ∧ offset < 93600
  | .localDatetime time => TimestampKind.localDatetime.Covers time
  | .wideDatetime time =>
      TimestampKind.wideDatetime.Covers { time with nanosecond := time.nanosecond % 1000000000 } ∧
        time.nanosecond < 2000000000
  | _ => True

theorem told_of_leaves {value : Value} (told : ∀ leaf ∈ value.leaves, leaf.Told) : value.Told := by
  cases value with
  | datetime time offset => exact told _ List.mem_cons_self
  | localDatetime time => exact told _ List.mem_cons_self
  | wideDatetime time => exact told _ List.mem_cons_self
  | _ => trivial

instance : (value : Value) → Decidable value.Told
  | .datetime time offset =>
      inferInstanceAs
        (Decidable (TimestampKind.datetime.Covers time ∧ -93600 < offset ∧ offset < 93600))
  | .localDatetime time => inferInstanceAs (Decidable (TimestampKind.localDatetime.Covers time))
  | .wideDatetime time =>
      inferInstanceAs (Decidable (TimestampKind.wideDatetime.Covers
          { time with nanosecond := time.nanosecond % 1000000000 } ∧
        time.nanosecond < 2000000000))
  | .uuid _ | .text _ | .bytes _ | .int16 _ | .int32 _ | .int64 _ | .float32 _ | .float64 _
  | .bool _ | .json _ | .duration _ | .member _ | .set _ | .array _ | .tuple _ => .isTrue trivial

end Value

mutual

/-- The values that a codec writes.  Timestamps stand as spans, sets are only received, and the
number of elements and the length of each have to be words. -/
def Codec.Fits : Codec → Value → Prop
  | .scalar _ kind, value => value.kind = kind.valueKind ∧ value.Counted
  | .timestamp _ inner kind, value =>
      value.kind = kind.valueKind ∧ ∃ type, inner = .scalar type .duration
  | .enumeration _ members, value => ∃ name ∈ members, value = .member name ∨ value = .text name
  | .set _ _, _ => False
  | .array _ element, value => ∃ elements, value = .array elements ∧
      elements.length ≤ Misfit.lengthMax ∧
      ∀ item ∈ elements, element.Fits item ∧ item.wireSize ≤ Misfit.lengthMax
  | .tuple _ codecs, value => ∃ slots, value = .tuple slots ∧
      codecs.length ≤ Misfit.lengthMax ∧ FitsSlots codecs slots

/-- Slots that codecs write: one for each codec, and what is present in it fits. -/
def FitsSlots : List Codec → List (Option Value) → Prop
  | [], [] => True
  | codec :: codecs, slot :: slots =>
      (∀ value, slot = some value → codec.Fits value ∧ value.wireSize ≤ Misfit.lengthMax) ∧
        FitsSlots codecs slots
  | _, _ => False

end

/-- What a codec makes of a value is decided by whether the value fits. -/
def Codec.Judges (codec : Codec) (value : Value) : Prop :=
  Decides (codec.write value) (codec.Fits value) value.wireSize

/-! ## Scalars -/

theorem durationWord_error (type : Uuid) {nanoseconds : Int}
    (uncounted : ¬ (Value.duration nanoseconds).Counted) :
    ∃ cause, durationWord type nanoseconds = .error (.encode cause) := by
  cases word : durationWord type nanoseconds with
  | ok count => exact absurd ⟨count, durationWord_eq_ok_iff.1 word⟩ uncounted
  | error fault =>
      rw [durationWord] at word
      split at word
      case h_1 => simp at word
      case h_2 misfit _ =>
        obtain rfl := Except.error.inj word
        exact ⟨_, rfl⟩

theorem judges_duration (type : Uuid) (nanoseconds : Int) :
    (Codec.scalar type .duration).Judges (.duration nanoseconds) := by
  by_cases counted : (Value.duration nanoseconds).Counted
  case pos =>
    obtain ⟨count, same⟩ := counted
    have emitted := emits_span (durationWord_eq_ok_iff.2 same : durationWord type nanoseconds = _)
    have fits : (Codec.scalar type .duration).Fits (.duration nanoseconds) := ⟨rfl, count, same⟩
    refine (emitted.decides (by simp [spanBytes, noLegacy, Value.wireSize])).congr ?_
    exact iff_of_true trivial fits
  case neg =>
    obtain ⟨cause, failed⟩ := durationWord_error type counted
    refine (decides_ofExcept_error failed (.encode cause) _).congr (iff_of_false not_false ?_)
    rintro ⟨-, fits⟩
    exact counted fits

theorem ScalarKind.write_of_mismatch {kind : ScalarKind} {value : Value}
    (unequal : value.kind ≠ kind.valueKind) (type : Uuid) :
    kind.write type value = throw (.encode (.mismatch .scalar type value.kind)) := by
  unfold ScalarKind.write
  split
  case h_12 => rfl
  all_goals exact absurd rfl unequal

theorem ScalarKind.judges (kind : ScalarKind) (type : Uuid) (value : Value) :
    (Codec.scalar type kind).Judges value := by
  have kept {write : Writes Unit} {kind : ScalarKind} {value : Value} {bytes : List UInt8}
      (matching : value.kind = kind.valueKind) (counted : value.Counted)
      (emitted : Emits write bytes) (length : bytes.length = value.wireSize) :
      Decides write ((Codec.scalar type kind).Fits value) value.wireSize :=
    (emitted.decides length).congr (iff_of_true trivial ⟨matching, counted⟩)
  by_cases matching : value.kind = kind.valueKind
  case neg =>
    rw [Codec.Judges, Codec.write, write_of_mismatch matching]
    refine (decides_throw (.encode _) _).congr (iff_of_false not_false ?_)
    rintro ⟨same, -⟩
    exact matching same
  case pos =>
    cases kind with
    | uuid =>
        cases value <;> cases matching
        exact kept rfl trivial (emits_put _) (by simp [Value.wireSize])
    | text | bytes | bool =>
        cases value <;> cases matching
        exact kept rfl trivial (emits_put _) rfl
    | int16 | int32 | int64 | float32 | float64 =>
        cases value <;> cases matching
        exact kept rfl trivial (emits_put _) (BigEndian.length_ofNat _ _)
    | json =>
        cases value <;> cases matching
        exact kept rfl trivial (Emits.bind (emits_put [jsonFormat]) (emits_put _))
          List.length_append
    | duration =>
        cases value <;> cases matching
        exact judges_duration type _

/-! ## Timestamps and enumerations -/

theorem CivilTime.nanoseconds_eq_add (time : CivilTime) :
    time.nanoseconds =
      { time with nanosecond := time.nanosecond % 1000000000 }.nanoseconds +
        time.nanosecond / 1000000000 * 1000000000 := by
  simp only [nanoseconds, sinceMidnight]
  omega

/-- A matching timestamp stands as a span, which has a count if the calendar can tell the
timestamp. -/
theorem TimestampKind.toInner_of_match {kind : TimestampKind} {value : Value}
    (matching : value.kind = kind.valueKind) (told : value.Told) :
    ∃ nanoseconds, kind.toInner value = .ok (.duration nanoseconds) ∧
      (Value.duration nanoseconds).Counted := by
  cases kind with
  | datetime =>
      cases value <;> cases matching
      case refl time offset =>
        obtain ⟨covered, behind, ahead⟩ := told
        have bounds := nanoseconds_bounds covered
        refine ⟨_, rfl, exists_count_of_bounds ?_ ?_⟩ <;> rw [Value.instant] <;> omega
  | localDatetime =>
      cases value <;> cases matching
      exact ⟨_, rfl, exists_count told⟩
  | wideDatetime =>
      cases value <;> cases matching
      case refl time =>
        obtain ⟨covered, leap⟩ := told
        have bounds := nanoseconds_bounds covered
        have parts := time.nanoseconds_eq_add
        obtain ⟨count, same⟩ :
            ∃ count : Int64, count.toInt = Span.microseconds time.nanoseconds :=
          exists_count_of_bounds (by omega) (by omega)
        exact ⟨_, rfl, count, by rw [Span.microseconds_mul, same]⟩

theorem TimestampKind.toInner_of_mismatch {kind : TimestampKind} {value : Value}
    (unequal : value.kind ≠ kind.valueKind) :
    kind.toInner value = .error (.encode (.timestampMismatch kind value.kind)) := by
  unfold toInner
  split
  case h_4 => rfl
  all_goals exact absurd rfl unequal

/-- The spans that a codec writes are those of the one kind of scalar that holds spans. -/
theorem Codec.fits_duration_iff {codec : Codec} {nanoseconds : Int}
    (counted : (Value.duration nanoseconds).Counted) :
    codec.Fits (.duration nanoseconds) ↔ ∃ type, codec = .scalar type .duration := by
  cases codec with
  | scalar type kind => cases kind <;> simp [Fits, Value.kind, ScalarKind.valueKind, counted]
  | timestamp type inner kind => cases kind <;> simp [Fits, Value.kind, TimestampKind.valueKind]
  | _ => simp [Fits]

theorem judges_timestamp {inner : Codec}
    (scalar : ∀ nanoseconds, inner.Judges (.duration nanoseconds)) (type : Uuid)
    (kind : TimestampKind) {value : Value} (told : value.Told) :
    (Codec.timestamp type inner kind).Judges value := by
  rw [Codec.Judges, Codec.write]
  by_cases matching : value.kind = kind.valueKind
  case neg =>
    have unshown := TimestampKind.toInner_of_mismatch matching
    refine (decides_ofExcept_error unshown (.encode _) _).congr (iff_of_false not_false ?_)
    rintro ⟨same, -⟩
    exact matching same
  case pos =>
    obtain ⟨nanoseconds, shown, counted⟩ := TimestampKind.toInner_of_match matching told
    have sixteen : value.wireSize = 16 := by
      cases kind <;> cases value <;> cases matching <;> rfl
    rw [sixteen]
    refine (decides_ofExcept_ok shown (scalar nanoseconds)).congr ?_
    rw [Codec.fits_duration_iff counted, Codec.Fits, and_iff_right matching]

theorem judges_enumeration (type : Uuid) (members : List String) (value : Value) :
    (Codec.enumeration type members).Judges value := by
  have named (name : String) :
      Decides (Codec.writeMember type members name) (name ∈ members)
        (Utf8.encode name).length := by
    by_cases listed : name ∈ members
    case pos =>
      have checked : Codec.checkMember type members name = .ok () := if_pos listed
      have emitted : Emits (Codec.writeMember type members name) (Utf8.encode name) :=
        emits_ofExcept_bind checked (emits_put _)
      exact (emitted.decides rfl).congr (iff_of_true trivial listed)
    case neg =>
      have checked : Codec.checkMember type members name =
          .error (.cardinality type (.member name members)) := if_neg listed
      exact (decides_ofExcept_error checked (.cardinality type _) _).congr
        (iff_of_false not_false listed)
  unfold Codec.Judges Codec.write
  split
  case h_1 name => exact (named name).congr (by simp [Codec.Fits])
  case h_2 name => exact (named name).congr (by simp [Codec.Fits])
  case h_3 unnamed untold =>
    refine (decides_throw (.encode _) _).congr (iff_of_false not_false ?_)
    rintro ⟨name, -, rfl | rfl⟩
    · exact unnamed name rfl
    · exact untold name rfl

/-! ## Arrays -/

theorem decides_elements {element : Codec} {elements : List Value}
    (each : ∀ item ∈ elements, element.Judges item) :
    Decides (Writes.each (fun item => Writes.lengthPrefixed (element.write item)) elements)
      (∀ item ∈ elements, element.Fits item ∧ item.wireSize ≤ Misfit.lengthMax)
      (Value.elementsSize elements) := by
  rw [Value.elementsSize_eq]
  exact decides_each fun item member => decides_lengthPrefixed (each item member)

theorem judges_array {element : Codec} {elements : List Value}
    (each : ∀ item ∈ elements, element.Judges item) (type : Uuid) :
    (Codec.array type element).Judges (.array elements) := by
  rw [Codec.Judges, Codec.write, Codec.writeArray]
  split
  case isTrue empty =>
    obtain rfl := List.isEmpty_iff.1 empty
    have header := (emits_int32 0).bind ((emits_int32 0).bind (emits_int32 0))
    exact (header.decides (by simp [Value.wireSize, Value.elementsSize])).congr
      (by simp [Codec.Fits])
  case isFalse filled =>
    have total : Value.wireSize (.array elements) =
        4 + (4 + (4 + (4 + (4 + Value.elementsSize elements)))) := by
      rw [Value.wireSize, if_neg filled]
      omega
    have body := (decides_elements each).afterInt32 1
    rw [total]
    refine Decides.congr (Decides.afterInt32 (Decides.afterInt32 (Decides.afterInt32
      (decides_lengthWord fun _ => body.afterWord32 _) 0) 0) 1) ?_
    simp [Codec.Fits]

/-! ## Tuples -/

theorem FitsSlots.length_eq {codecs : List Codec} {slots : List (Option Value)}
    (fits : FitsSlots codecs slots) : slots.length = codecs.length := by
  induction codecs generalizing slots with
  | nil =>
      cases slots with
      | nil => rfl
      | cons slot slots => exact fits.elim
  | cons codec codecs ih =>
      cases slots with
      | nil => exact fits.elim
      | cons slot slots => rw [List.length_cons, List.length_cons, ih fits.2]

theorem decides_slot_present {codec : Codec} {value : Value} (judged : codec.Judges value) :
    Decides (Codec.writeSlot codec.write (some value))
      (codec.Fits value ∧ value.wireSize ≤ Misfit.lengthMax) (8 + value.wireSize) := by
  have decided := (decides_lengthPrefixed judged).afterInt32 0
  rwa [← Nat.add_assoc] at decided

theorem decides_slot_absent (write : Value → Writes Unit) :
    Decides (Codec.writeSlot write none) True 8 := by
  have written := (emits_int32 0).bind (emits_int32 (-1))
  exact written.decides (by simp)

theorem judges_tuple {codecs : List Codec} {slots : List (Option Value)}
    (each : slots.length = codecs.length →
      Decides (Codec.writeSlots codecs slots) (FitsSlots codecs slots) (Value.slotsSize slots))
    (type : Uuid) : (Codec.tuple type codecs).Judges (.tuple slots) := by
  rw [Codec.Judges, Codec.write]
  split
  case isFalse unpaired =>
    refine (decides_throw (.cardinality type _) _).congr (iff_of_false not_false ?_)
    rintro ⟨_, same, -, fits⟩
    obtain rfl := Value.tuple.inj same
    exact unpaired fits.length_eq
  case isTrue paired =>
    rw [Value.wireSize]
    refine (decides_lengthWord fun _ => (each paired).afterWord32 _).congr ?_
    simp [Codec.Fits, paired]

/-! ## All codecs -/

mutual

theorem Codec.judges : (codec : Codec) → (value : Value) → (∀ leaf ∈ value.leaves, leaf.Told) →
    codec.Judges value
  | .scalar type kind, value, _ => kind.judges type value
  | .timestamp type inner kind, value, told => by
      have spans (nanoseconds : Int) : inner.Judges (.duration nanoseconds) :=
        inner.judges (.duration nanoseconds) (by simp [Value.leaves, Value.Told])
      exact judges_timestamp spans type kind (Value.told_of_leaves told)
  | .enumeration type members, value, _ => judges_enumeration type members value
  | .set type _, value, _ =>
      (decides_throw (.unsupportedShape type _) _).congr (by simp [Codec.Fits])
  | .array type element, value, told => by
      cases value with
      | array elements =>
          refine judges_array (fun item member => element.judges item ?_) type
          intro leaf inside
          exact told leaf (Value.mem_leaves_of_mem member inside)
      | _ => exact (decides_throw (.encode _) _).congr (by simp [Codec.Fits])
  | .tuple type codecs, value, told => by
      cases value with
      | tuple slots => exact judges_tuple (decidesSlots codecs slots told) type
      | _ => exact (decides_throw (.encode _) _).congr (by simp [Codec.Fits])

theorem decidesSlots : (codecs : List Codec) → (slots : List (Option Value)) →
    (∀ leaf ∈ Value.slotLeaves slots, leaf.Told) → slots.length = codecs.length →
    Decides (Codec.writeSlots codecs slots) (FitsSlots codecs slots) (Value.slotsSize slots)
  | [], [], _, _ => (emits_pure.decides rfl).congr (by simp [FitsSlots])
  | codec :: codecs, none :: slots, told, paired => by
      have rest := decidesSlots codecs slots told (Nat.succ.inj paired)
      exact ((decides_slot_absent codec.write).bind rest).congr (by simp [FitsSlots])
  | codec :: codecs, some value :: slots, told, paired => by
      rw [Value.slotLeaves, List.forall_mem_append] at told
      have rest := decidesSlots codecs slots told.2 (Nat.succ.inj paired)
      exact ((decides_slot_present (codec.judges value told.1)).bind rest).congr
        (by simp [FitsSlots])

end

/-- A codec writes the values that fit it, each as the bytes that its size tells.  Any other value
is refused for what it is, and so is everything by a set.  What is absent is written as nothing. -/
theorem Codec.encode_iff_fits (codec : Codec) :
    (∀ value : Value, (∀ leaf ∈ value.leaves, leaf.Told) →
      ((∃ bytes, codec.encode (some value) = .ok bytes) ↔ codec.Fits value) ∧
      (∀ bytes, codec.encode (some value) = .ok bytes → bytes.length = value.wireSize) ∧
      ∀ fault, codec.encode (some value) = .error fault → fault.OfValue) ∧
    (∀ type element, codec = .set type element →
      codec.encode none = .error (.unsupportedShape type .setWriting)) ∧
    ((∀ type element, codec ≠ .set type element) → codec.encode none = .ok []) := by
  refine ⟨?_, ?_, ?_⟩
  · intro value told
    have judged := codec.judges value told
    by_cases fits : codec.Fits value
    case pos =>
      obtain ⟨bytes, written, length⟩ : ∃ bytes,
          codec.encode (some value) = .ok bytes ∧ bytes.length = value.wireSize :=
        judged.run_ok fits
      simp [written, fits, length]
    case neg =>
      obtain ⟨fault, failed, ofValue⟩ : ∃ fault,
          codec.encode (some value) = .error fault ∧ fault.OfValue :=
        judged.run_error fits
      simp [failed, fits, ofValue]
  · rintro type element rfl
    rfl
  · intro setless
    cases codec with
    | set type element => exact absurd rfl (setless type element)
    | _ => rfl

theorem encode_iff_fits_sample :
    (∀ leaf ∈ valueSample.leaves, leaf.Told) ∧ tupleSample.Fits valueSample ∧
      ∀ bytes, tupleSample.encode (some valueSample) = .ok bytes →
        bytes.length = valueSample.wireSize := by
  have told : ∀ leaf ∈ valueSample.leaves, leaf.Told := by decide
  obtain ⟨written, length, -⟩ := tupleSample.encode_iff_fits.1 valueSample told
  exact ⟨told, written.1 ⟨_, rfl⟩, length⟩

end SchemaWire
