import SchemaWire.Proofs.Codec.Conformity

/-!
# Canonical forms

Many byte strings may stand for one value: bounds of an array need only their distance to be right,
reserved bytes are free, every negative length tells of an absent slot.  A codec without sets
writes one of them, the canonical form, for whatever value it has read.  That form is no longer
than the bytes that were read, so all lengths in it can be written, and it reads as the same value.
-/

namespace SchemaWire

open Reads

mutual

/-- Whether no set stands anywhere in a codec. -/
def Codec.isSetFree : Codec → Bool
  | .scalar _ _ | .enumeration _ _ => true
  | .timestamp _ inner _ => inner.isSetFree
  | .set _ _ => false
  | .array _ element => element.isSetFree
  | .tuple _ elements => areSetFree elements

/-- Whether no set stands anywhere in codecs. -/
def Codec.areSetFree : List Codec → Bool
  | [] => true
  | codec :: codecs => codec.isSetFree && areSetFree codecs

end

/-- The bytes that a codec writes for a value and reads, as a whole, as that value. -/
structure Codec.Canonical (codec : Codec) (value : Value) (bytes : List UInt8) : Prop where
  written : Writes.Emits (codec.write value) bytes
  whole : TakesAll codec.read bytes value

/-- A value read from bytes has a canonical form that is no longer. -/
def Codec.Shortens (codec : Codec) (bytes : List UInt8) (value : Value) : Prop :=
  bytes.length ≤ Misfit.lengthMax →
    ∃ canonical, canonical.length ≤ bytes.length ∧ codec.Canonical value canonical

/-! ## Scalars, timestamps and enumerations -/

theorem durationWord_microseconds (type : Uuid) (microseconds : Int64) :
    durationWord type (microseconds.toInt * 1000) = .ok microseconds := by
  have inside : Misfit.of? Int64.minValue.toInt Int64.maxValue.toInt microseconds.toInt = none := by
    have lower := microseconds.le_toInt
    have upper := microseconds.toInt_lt
    rw [Misfit.of?_eq_none_iff, Int64.toInt_minValue, Int64.toInt_maxValue]
    omega
  rw [durationWord, Span.microseconds_mul, inside]
  simp

/-- A number of microseconds, and the eight bytes that once held days and months. -/
def spanBytes (count : Int64) (legacy : List UInt8) : List UInt8 :=
  BigEndian.ofNat 8 count.toUInt64.toNat ++ legacy

/-- Eight bytes that hold no days and no months. -/
def noLegacy : List UInt8 :=
  List.replicate 8 0

theorem takes_span {count : Int64} {legacy : List UInt8} (eight : legacy.length = 8) :
    Takes (ScalarKind.read .duration) (spanBytes count legacy)
      (.duration (count.toInt * 1000)) := by
  refine (takes_int64 count).bind ?_
  exact (takes_skip eight).then (takes_pure _)

theorem emits_span {type : Uuid} {nanoseconds : Int} {count : Int64}
    (held : durationWord type nanoseconds = .ok count) :
    Writes.Emits (ScalarKind.write .duration type (.duration nanoseconds))
      (spanBytes count noLegacy) := by
  have legacy := (Writes.emits_int32 0).bind (Writes.emits_int32 0)
  refine Writes.emits_ofExcept_bind held ?_
  exact Writes.Emits.bind (Writes.emits_put _) legacy

theorem canonical_duration (type : Uuid) (microseconds : Int64) :
    ∃ bytes, bytes.length = 16 ∧
      (Codec.scalar type .duration).Canonical (.duration (microseconds.toInt * 1000)) bytes := by
  refine ⟨spanBytes microseconds noLegacy, by simp [spanBytes, noLegacy], ?_, ?_⟩
  · exact emits_span (durationWord_microseconds type microseconds)
  · exact (takes_span rfl).takesAll

theorem ScalarKind.Holds.canonical {kind : ScalarKind} {length : Nat} {value : Value}
    (held : kind.Holds length value) (type : Uuid) :
    ∃ bytes, bytes.length = length ∧ (Codec.scalar type kind).Canonical value bytes := by
  have plain {bytes : List UInt8} (long : bytes.length = length)
      (written : kind.write type value = Writes.put bytes)
      (taken : TakesAll kind.read bytes value) :
      ∃ bytes, bytes.length = length ∧ (Codec.scalar type kind).Canonical value bytes := by
    refine ⟨bytes, long, ?_, taken⟩
    rw [Codec.write, written]
    exact Writes.emits_put bytes
  cases held with
  | uuid id => exact plain (by simp) rfl ((takes_uuid id).map Value.uuid).takesAll
  | text text => exact plain rfl rfl (takesAll_text .scalar text (takes_pure _))
  | bytes bytes => exact plain rfl rfl ((takesAll_rest bytes).then (takes_pure _))
  | int16 number => exact plain (by simp) rfl ((takes_int16 number).map Value.int16).takesAll
  | int32 number => exact plain (by simp) rfl ((takes_int32 number).map Value.int32).takesAll
  | int64 number => exact plain (by simp) rfl ((takes_int64 number).map Value.int64).takesAll
  | float32 bits => exact plain (by simp) rfl ((takes_float32 bits).map Value.float32).takesAll
  | float64 bits => exact plain (by simp) rfl ((takes_float64 bits).map Value.float64).takesAll
  | bool truth => exact plain (by simp) rfl (takesAll_bool truth)
  | json text =>
      refine ⟨[jsonFormat] ++ Utf8.encode text, by simp [Nat.add_comm], ?_, takesAll_json text⟩
      exact Writes.Emits.bind (Writes.emits_put _) (Writes.emits_put _)
  | duration microseconds => exact canonical_duration type microseconds

/-- A span is read from sixteen bytes, and is a whole number of microseconds. -/
theorem Codec.span_of_read (codec : Codec) :
    Gives codec.read fun bytes value => ∀ nanoseconds, value = .duration nanoseconds →
      bytes.length = 16 ∧ ∃ type, ∃ microseconds : Int64,
        codec = .scalar type .duration ∧ nanoseconds = microseconds.toInt * 1000 := by
  cases codec with
  | scalar type kind =>
      refine kind.holds_of_read.mono ?_
      rintro bytes _ held nanoseconds rfl
      generalize bytes.length = length at held
      cases held with
      | duration microseconds => exact ⟨rfl, type, microseconds, rfl, rfl⟩
  | _ =>
      refine (Codec.conforms_of_read _).mono ?_
      rintro bytes _ conforms nanoseconds rfl
      obtain ⟨_, same⟩ := conforms.eq_of_duration
      cases same

theorem TimestampKind.toInner_valueOf {kind : TimestampKind} {microseconds : Int} {time : CivilTime}
    (inside : kind.time? (microseconds * 1000) = some time) :
    kind.toInner (kind.valueOf time) = .ok (.duration (microseconds * 1000)) := by
  rw [time?, CivilTime.within?] at inside
  split at inside
  case isFalse => simp at inside
  case isTrue =>
    obtain rfl := Option.some.inj inside
    cases kind with
    | datetime => simp [toInner, valueOf, Value.instant]
    | localDatetime => simp [toInner, valueOf]
    | wideDatetime => simp [toInner, valueOf]

theorem canonical_timestamp {type inner : Uuid} {kind : TimestampKind} {microseconds : Int64}
    {value : Value} (shown : kind.ofInner (.duration (microseconds.toInt * 1000)) = .ok value) :
    ∃ bytes, bytes.length = 16 ∧
      (Codec.timestamp type (.scalar inner .duration) kind).Canonical value bytes := by
  obtain ⟨bytes, long, held⟩ := canonical_duration inner microseconds
  refine ⟨bytes, long, ?_, held.whole.then (takes_ofExcept shown)⟩
  obtain ⟨_, time, same, inside, rfl⟩ := TimestampKind.ofInner_eq_ok shown
  obtain rfl := Value.duration.inj same
  exact Writes.emits_ofExcept_bind (TimestampKind.toInner_valueOf inside) held.written

theorem canonical_enumeration {type : Uuid} {members : List String} {name : String}
    (checked : Codec.checkMember type members name = .ok ()) :
    (Codec.enumeration type members).Canonical (.member name) (Utf8.encode name) where
  written := Writes.emits_ofExcept_bind checked (Writes.emits_put _)
  whole := by
    refine takesAll_text .enumeration name ?_
    exact (takes_ofExcept checked).bind (takes_pure _)

/-! ## Arrays -/

/-- The elements of an array have canonical forms if their boxes together are not too long. -/
theorem canonical_elements {element : Codec} {payloads : List (List UInt8)} {elements : List Value}
    (each : List.Forall₂ element.Shortens payloads elements)
    (fits : (payloads.map boxed).flatten.length ≤ Misfit.lengthMax) :
    ∃ chunks : List (List UInt8),
      List.Forall₂ (fun value chunk => chunk.length ≤ Misfit.lengthMax ∧
        element.Canonical value chunk) elements chunks ∧
      (chunks.map boxed).flatten.length ≤ (payloads.map boxed).flatten.length ∧
      elements.length ≤ (payloads.map boxed).flatten.length := by
  induction each with
  | nil => exact ⟨[], .nil, Nat.le_refl _, Nat.le_refl _⟩
  | @cons payload value payloads elements head _ ih =>
      rw [List.map_cons, List.flatten_cons, List.length_append, length_boxed] at fits ⊢
      obtain ⟨chunk, shorter, held⟩ := head (by omega)
      obtain ⟨chunks, others, total, counted⟩ := ih (by omega)
      refine ⟨chunk :: chunks, .cons ⟨by omega, held⟩ others, ?_, ?_⟩
      · rw [List.map_cons, List.flatten_cons, List.length_append, length_boxed]
        omega
      · rw [List.length_cons]
        omega

theorem canonical_array_nil (type : Uuid) (element : Codec) :
    ∃ bytes, bytes.length = 12 ∧ (Codec.array type element).Canonical (.array []) bytes := by
  refine ⟨BigEndian.ofNat 4 0 ++ (BigEndian.ofNat 4 0 ++ BigEndian.ofNat 4 0), by simp, ?_, ?_⟩
  · exact (Writes.emits_int32 0).bind ((Writes.emits_int32 0).bind (Writes.emits_int32 0))
  · refine ((takes_int32 0).bind ?_).takesAll
    exact Takes.then (takes_skip (by simp)) (takes_pure _)

theorem canonical_array {type : Uuid} {element : Codec} {elements : List Value}
    {chunks : List (List UInt8)} (filled : elements ≠ [])
    (counted : elements.length ≤ Misfit.lengthMax)
    (each : List.Forall₂ (fun value chunk => chunk.length ≤ Misfit.lengthMax ∧
      element.Canonical value chunk) elements chunks) :
    ∃ bytes, bytes.length = 20 + (chunks.map boxed).flatten.length ∧
      (Codec.array type element).Canonical (.array elements) bytes := by
  have word : Writes.lengthWord elements.length = .ok (UInt32.ofNat elements.length) :=
    Writes.lengthWord_eq_ok.2 ⟨counted, rfl⟩
  have written : Writes.Emits
      (Writes.each (fun value => Writes.lengthPrefixed (element.write value)) elements)
      (chunks.map boxed).flatten := by
    refine Writes.emits_each (List.forall₂_map_right_iff.2 (each.imp ?_))
    rintro value chunk ⟨short, held⟩
    exact Writes.emits_lengthPrefixed held.written short
  have reads : List.Forall₂ (fun chunk item =>
      ∀ index, Takes (readElement type element.read index) chunk item)
      (chunks.map boxed) elements := by
    refine List.forall₂_map_left_iff.2 (each.flip.imp ?_)
    rintro chunk value ⟨short, held⟩ index
    exact takes_readElement short held.whole type index
  refine ⟨_, ?_, ?_, (takes_readArray counted reads).takesAll⟩
  · simp only [List.length_append, BigEndian.length_ofNat]
    omega
  · have unwritten : elements.isEmpty = false := by simpa using filled
    have length := Writes.emits_word32 (UInt32.ofNat elements.length)
    rw [Writes.toNat_lengthWord counted] at length
    rw [Codec.write, Codec.writeArray, unwritten]
    refine (Writes.emits_int32 1).bind ?_
    refine (Writes.emits_int32 0).bind ?_
    refine (Writes.emits_int32 0).bind (Writes.emits_ofExcept_bind word ?_)
    exact length.bind ((Writes.emits_int32 1).bind written)

theorem shortens_array {type : Uuid} {element : Codec}
    (given : Gives element.read element.Shortens) :
    Gives (Codec.array type element).read (Codec.array type element).Shortens := by
  refine (gives_readArray given type).mono ?_
  rintro bytes value ⟨payloads, elements, rfl, each, least, long⟩ fits
  by_cases filled : elements = []
  · subst filled
    obtain ⟨canonical, twelve, held⟩ := canonical_array_nil type element
    exact ⟨canonical, by omega, held⟩
  · have total := long filled
    obtain ⟨chunks, held, shorter, counted⟩ := canonical_elements each (by omega)
    obtain ⟨canonical, size, whole⟩ := canonical_array filled (by omega) held
    exact ⟨canonical, by omega, whole⟩

/-! ## Tuples -/

/-- The bytes that codecs write for slots and read as those, after any others. -/
structure CanonicalSlots (codecs : List Codec) (slots : List (Option Value))
    (bytes : List UInt8) : Prop where
  written : Writes.Emits (Codec.writeSlots codecs slots) bytes
  taken : ∀ done, Takes (Codec.readSlots codecs done) bytes (done.reverse ++ slots)

theorem canonicalSlots_nil : CanonicalSlots [] [] [] where
  written := Writes.emits_pure
  taken done := by
    rw [Codec.readSlots, List.append_nil]
    exact takes_pure done.reverse

theorem CanonicalSlots.cons {codec : Codec} {codecs : List Codec} {slot : Option Value}
    {slots : List (Option Value)} {front back : List UInt8}
    (written : Writes.Emits (Codec.writeSlot codec.write slot) front)
    (taken : Takes (Codec.readSlot codec.read) front slot)
    (rest : CanonicalSlots codecs slots back) :
    CanonicalSlots (codec :: codecs) (slot :: slots) (front ++ back) where
  written := written.bind rest.written
  taken done := by
    rw [Codec.readSlots]
    refine taken.bind ?_
    simpa using rest.taken (slot :: done)

theorem canonicalSlot_absent (codec : Codec) :
    ∃ bytes, bytes.length = 8 ∧ Writes.Emits (Codec.writeSlot codec.write none) bytes ∧
      Takes (Codec.readSlot codec.read) bytes none := by
  refine ⟨_, by simp, ?_, takes_readSlot_absent codec.read⟩
  exact (Writes.emits_int32 0).bind (Writes.emits_int32 (-1))

theorem canonicalSlot_present {codec : Codec} {value : Value} {chunk : List UInt8}
    (held : codec.Canonical value chunk) (fits : chunk.length ≤ Misfit.lengthMax) :
    ∃ bytes, bytes.length = 8 + chunk.length ∧
      Writes.Emits (Codec.writeSlot codec.write (some value)) bytes ∧
      Takes (Codec.readSlot codec.read) bytes (some value) := by
  refine ⟨_, ?_, ?_, takes_readSlot fits held.whole⟩
  · simp only [List.length_append, length_boxed, BigEndian.length_ofNat]
    omega
  · exact (Writes.emits_int32 0).bind (Writes.emits_lengthPrefixed held.written fits)

theorem canonical_tuple {type : Uuid} {codecs : List Codec} {slots : List (Option Value)}
    {bytes : List UInt8} (fits : codecs.length ≤ Misfit.lengthMax)
    (paired : slots.length = codecs.length) (held : CanonicalSlots codecs slots bytes) :
    (Codec.tuple type codecs).Canonical (.tuple slots)
      (BigEndian.ofNat 4 codecs.length ++ bytes) where
  written := by
    rw [Codec.write, if_pos paired, paired]
    refine Writes.emits_ofExcept_bind (Writes.lengthWord_eq_ok.2 ⟨fits, rfl⟩) ?_
    have length := Writes.emits_word32 (UInt32.ofNat codecs.length)
    rw [Writes.toNat_lengthWord fits] at length
    exact length.bind held.written
  whole := by
    obtain ⟨count, counted, taken⟩ := takes_length fits
    refine (taken.bind ?_).takesAll
    rw [counted, if_pos rfl]
    exact (held.taken []).then (takes_pure _)

/-! ## All codecs -/

theorem isSetFree_cons {codec : Codec} {codecs : List Codec}
    (free : Codec.areSetFree (codec :: codecs) = true) :
    codec.isSetFree = true ∧ Codec.areSetFree codecs = true := by
  rwa [Codec.areSetFree, Bool.and_eq_true] at free

mutual

/-- What a codec without sets reads has a canonical form that is no longer. -/
theorem Codec.shortens_of_read : (codec : Codec) → codec.isSetFree = true →
    Gives codec.read codec.Shortens
  | .scalar type kind, _ => by
      refine kind.holds_of_read.mono ?_
      intro bytes value held _
      obtain ⟨canonical, long, whole⟩ := held.canonical type
      exact ⟨canonical, long.le, whole⟩
  | .timestamp type inner kind, _ => by
      refine inner.span_of_read.bind fun front held span => gives_ofExcept fun value shown _ => ?_
      obtain ⟨nanoseconds, _, rfl, -, -⟩ := TimestampKind.ofInner_eq_ok shown
      obtain ⟨sixteen, _, microseconds, rfl, rfl⟩ := span nanoseconds rfl
      obtain ⟨canonical, long, whole⟩ := canonical_timestamp shown
      refine ⟨canonical, ?_, whole⟩
      rw [List.append_nil, long, sixteen]
  | .enumeration type members, _ => by
      refine gives_text .enumeration fun name => gives_ofExcept_bind fun _ checked => ?_
      apply gives_pure
      intro _
      refine ⟨Utf8.encode name, ?_, canonical_enumeration checked⟩
      rw [List.append_nil]
  | .array type element, free => shortens_array (element.shortens_of_read free)
  | .tuple type codecs, free => by
      refine gives_int32.bind fun front count four => ?_
      split
      case isFalse => exact gives_throw _
      case isTrue counted =>
        have fits : codecs.length ≤ Misfit.lengthMax := by
          have below := count.toInt_lt
          rw [Misfit.lengthMax, UInt32.size]
          omega
        refine Gives.map ((shortensSlots_of_read codecs free []).mono ?_)
        rintro bytes slots ⟨more, rfl, paired, shorter⟩ long
        rw [List.length_append] at long ⊢
        obtain ⟨canonical, less, held⟩ := shorter (by omega)
        refine ⟨_, ?_, canonical_tuple fits paired held⟩
        rw [List.length_append, BigEndian.length_ofNat]
        omega

theorem shortensSlots_of_read : (codecs : List Codec) → Codec.areSetFree codecs = true →
    (done : List (Option Value)) →
    Gives (Codec.readSlots codecs done) fun bytes slots =>
      ∃ more, slots = done.reverse ++ more ∧ more.length = codecs.length ∧
        (bytes.length ≤ Misfit.lengthMax →
          ∃ canonical, canonical.length ≤ bytes.length ∧ CanonicalSlots codecs more canonical)
  | [], _, done => by
      refine gives_pure ⟨[], (List.append_nil _).symm, rfl, fun _ => ?_⟩
      exact ⟨[], Nat.le_refl _, canonicalSlots_nil⟩
  | codec :: codecs, free, done => by
      obtain ⟨headFree, restFree⟩ := isSetFree_cons free
      refine (gives_readSlot (codec.shortens_of_read headFree)).bind fun front slot known => ?_
      obtain ⟨payload, sized, related⟩ := known
      refine (shortensSlots_of_read codecs restFree (slot :: done)).mono ?_
      rintro back slots ⟨more, rfl, paired, shorter⟩
      refine ⟨slot :: more, by simp, by simp [paired], ?_⟩
      intro long
      rw [List.length_append] at long ⊢
      obtain ⟨rest, less, held⟩ := shorter (by omega)
      cases related with
      | none =>
          obtain ⟨first, eight, written, taken⟩ := canonicalSlot_absent codec
          refine ⟨first ++ rest, ?_, held.cons written taken⟩
          rw [byteArraySize, Option.getD_none, List.length_nil] at sized
          rw [List.length_append]
          omega
      | @some payload value head =>
          rw [byteArraySize, Option.getD_some] at sized
          obtain ⟨chunk, shortened, whole⟩ := head (by omega)
          obtain ⟨first, size, written, taken⟩ := canonicalSlot_present whole (by omega)
          refine ⟨first ++ rest, ?_, held.cons written taken⟩
          rw [List.length_append]
          omega

end

theorem Codec.encode_of_canonical {codec : Codec} {value : Value} {bytes : List UInt8}
    (held : codec.Canonical value bytes) : codec.encode (some value) = .ok bytes :=
  Writes.run_of_emits held.written

theorem Codec.decode_of_canonical {codec : Codec} {value : Value} {bytes : List UInt8}
    (held : codec.Canonical value bytes) : codec.decode (some bytes) = .ok (some value) := by
  rw [decode, held.whole.run_whole]

/-- What a codec makes of present bytes is a value, and one of its type.  If no set stands in the
codec and the bytes are few enough for a length, then the value is written in no more bytes, and
these are read as the same value. -/
theorem Codec.canonical_of_decode (codec : Codec) (bytes : List UInt8) (result : Option Value)
    (fits : bytes.length ≤ Misfit.lengthMax) (decoded : codec.decode (some bytes) = .ok result) :
    ∃ value, result = some value ∧ Conforms codec value ∧
      (codec.isSetFree = true →
        ∃ canonical, codec.encode (some value) = .ok canonical ∧
          canonical.length ≤ bytes.length ∧
          codec.decode (some canonical) = .ok (some value)) := by
  rw [decode] at decoded
  split at decoded
  case h_2 => simp at decoded
  case h_1 value done =>
    obtain rfl := Except.ok.inj decoded
    refine ⟨value, rfl, codec.conforms_of_read.of_run_whole done, ?_⟩
    intro free
    obtain ⟨canonical, shorter, held⟩ := (codec.shortens_of_read free).of_run_whole done fits
    exact ⟨canonical, encode_of_canonical held, shorter, decode_of_canonical held⟩

/-- A tuple of an array and a truth value. -/
def canonicalSample : Codec :=
  .tuple (.ofLow 1) [.array (.ofLow 2) (.scalar (.ofLow 3) .int16), .scalar (.ofLow 4) .bool]

/-- An array with bounds eight and seven, its reserved bytes filled, and a length of minus seven. -/
def looseSample : List UInt8 :=
  [0, 0, 0, 2,
    9, 9, 9, 9, 0, 0, 0, 32, 0, 0, 0, 1, 1, 2, 3, 4, 5, 6, 7, 8, 0, 0, 0, 8, 0, 0, 0, 7,
    0, 0, 0, 2, 0, 5, 0, 0, 0, 2, 255, 255,
    0, 0, 0, 0, 255, 255, 255, 249]

theorem canonical_of_decode_sample :
    looseSample.length ≤ Misfit.lengthMax ∧
      canonicalSample.decode (some looseSample) =
        .ok (some (.tuple [some (.array [.int16 5, .int16 (-1)]), none])) ∧
      ∃ canonical, canonicalSample.encode
          (some (.tuple [some (.array [.int16 5, .int16 (-1)]), none])) = .ok canonical ∧
        canonical.length ≤ looseSample.length ∧ canonicalSample.decode (some canonical) =
          .ok (some (.tuple [some (.array [.int16 5, .int16 (-1)]), none])) := by
  have fits : looseSample.length ≤ Misfit.lengthMax := by decide
  have decoded : canonicalSample.decode (some looseSample) =
      .ok (some (.tuple [some (.array [.int16 5, .int16 (-1)]), none])) := rfl
  obtain ⟨_, same, -, rewritten⟩ :=
    Codec.canonical_of_decode canonicalSample looseSample _ fits decoded
  obtain rfl := Option.some.inj same
  exact ⟨fits, decoded, rewritten rfl⟩

end SchemaWire
