import SchemaWire.Codec.Decode
import SchemaWire.Codec.Encode
import SchemaWire.Proofs.Codec.Settled
import SchemaWire.Proofs.Wire.Reading

/-!
# Values written and read back

What a codec writes for a value it reads back as what it makes of the value, however deep the
value is nested.  The bytes of an element are known only once its length has been put before them,
so writing and reading are compared on the bytes that a write leaves behind.
-/

namespace SchemaWire

/-- Whatever a codec writes for a value, it reads back whole as what it makes of the value. -/
def Codec.Recovers (codec : Codec) (value : Value) : Prop :=
  Writes.Leaves (codec.write value) fun bytes =>
    ∃ decoded, Reads.TakesAll codec.read bytes decoded ∧ Settles codec value decoded

/-! ## Scalars -/

theorem durationWord_eq_ok {type : Uuid} {nanoseconds : Int} {word : Int64}
    (held : durationWord type nanoseconds = .ok word) :
    word.toInt = Span.microseconds nanoseconds := by
  rw [durationWord] at held
  split at held
  case h_2 => simp at held
  case h_1 fits =>
    obtain ⟨lower, upper⟩ := Misfit.of?_eq_none_iff.1 fits
    rw [Int64.toInt_minValue] at lower
    rw [Int64.toInt_maxValue] at upper
    obtain rfl := Except.ok.inj held
    exact Int64.toInt_ofInt_of_le (by omega) (by omega)

theorem takesAll_text {α : Type} (place : TextPlace) (text : String) {next : String → Reads α}
    {value : α} (tail : Reads.Takes (next text) [] value) :
    Reads.TakesAll (do
      let bytes ← Reads.rest
      let text ← Reads.ofExcept (Reads.textOf place bytes)
      next text) (Utf8.encode text) value := by
  have decoded := Reads.takes_ofExcept (Reads.textOf_encode place text)
  exact (Reads.takesAll_rest (Utf8.encode text)).then (decoded.bind tail)

theorem takesAll_bool (truth : Bool) :
    Reads.TakesAll (ScalarKind.read .bool) [if truth then 1 else 0] (.bool truth) := by
  refine ((Reads.takes_byte _).then ?_).takesAll
  cases truth <;> exact Reads.takes_pure _

theorem takesAll_json (text : String) :
    Reads.TakesAll (ScalarKind.read .json) ([jsonFormat] ++ Utf8.encode text) (.json text) := by
  refine (Reads.takes_byte jsonFormat).bindAll ?_
  rw [if_pos rfl]
  exact takesAll_text .scalar text (Reads.takes_pure _)

theorem recovers_duration (type : Uuid) (nanoseconds : Int) :
    (Codec.scalar type .duration).Recovers (.duration nanoseconds) := by
  refine Writes.leaves_ofExcept_bind fun word held => ?_
  refine Writes.Adds.leaves ((Writes.adds_int64 word).bind
    ((Writes.adds_int32 0).bind (Writes.adds_int32 0))) ⟨_, ?_, .duration⟩
  rw [← durationWord_eq_ok held]
  refine ((Reads.takes_int64 word).bind ?_).takesAll
  exact Reads.Takes.then (Reads.takes_skip (by simp)) (Reads.takes_pure _)

/-- Every scalar kind recovers the values that it can write. -/
theorem ScalarKind.recovers (kind : ScalarKind) (type : Uuid) (value : Value) :
    (Codec.scalar type kind).Recovers value := by
  have kept {write : Writes Unit} {kind : ScalarKind} {value : Value} {bytes : List UInt8}
      (added : write.Adds bytes) (taken : Reads.TakesAll kind.read bytes value)
      (timeless : ∀ nanoseconds, value ≠ .duration nanoseconds) :
      write.Leaves fun bytes => ∃ decoded,
        Reads.TakesAll (Codec.scalar type kind).read bytes decoded ∧
          Settles (.scalar type kind) value decoded :=
    added.leaves ⟨value, taken, .scalar timeless⟩
  unfold Codec.Recovers Codec.write ScalarKind.write
  split
  case h_1 id =>
    have taken := (Reads.takes_uuid id).map Value.uuid
    exact kept (Writes.adds_uuid id) taken.takesAll nofun
  case h_2 text =>
    exact kept (Writes.adds_put _) (takesAll_text .scalar text (Reads.takes_pure _)) nofun
  case h_3 bytes =>
    exact kept (Writes.adds_put _) ((Reads.takesAll_rest bytes).then (Reads.takes_pure _)) nofun
  case h_4 number =>
    have taken := (Reads.takes_int16 number).map Value.int16
    exact kept (Writes.adds_int16 number) taken.takesAll nofun
  case h_5 number =>
    have taken := (Reads.takes_int32 number).map Value.int32
    exact kept (Writes.adds_int32 number) taken.takesAll nofun
  case h_6 number =>
    have taken := (Reads.takes_int64 number).map Value.int64
    exact kept (Writes.adds_int64 number) taken.takesAll nofun
  case h_7 bits =>
    have taken := (Reads.takes_float32 bits).map Value.float32
    exact kept (Writes.adds_word32 bits) taken.takesAll nofun
  case h_8 bits =>
    have taken := (Reads.takes_float64 bits).map Value.float64
    exact kept (Writes.adds_word64 bits) taken.takesAll nofun
  case h_9 truth => exact kept (Writes.adds_byte _) (takesAll_bool truth) nofun
  case h_10 text =>
    exact kept ((Writes.adds_byte jsonFormat).bind (Writes.adds_put _)) (takesAll_json text) nofun
  case h_11 nanoseconds => exact recovers_duration type nanoseconds
  case h_12 => exact Writes.leaves_throw _

/-! ## Timestamps and enumerations -/

theorem TimestampKind.ofInner_of_covers {kind : TimestampKind} {time : CivilTime}
    (covered : kind.Covers time) :
    kind.ofInner (.duration (Span.microseconds time.nanoseconds * 1000)) =
      .ok (kind.valueOf
        (CivilTime.ofNanoseconds (Span.microseconds time.nanoseconds * 1000))) := by
  rw [ofInner, TimestampKind.time?_of_covers covered (Span.microseconds_nearer _)]

/-- A timestamp that its type covers comes back cut to whole microseconds. -/
theorem TimestampKind.ofInner_toInner {kind : TimestampKind} {value held : Value}
    (covered : value.Covered) (shown : kind.toInner value = .ok held) :
    ∃ nanoseconds, held = .duration nanoseconds ∧
      ∃ decoded, kind.ofInner (.duration (Span.microseconds nanoseconds * 1000)) = .ok decoded ∧
        ∀ type inner, Settles (.timestamp type inner kind) value decoded := by
  unfold toInner at shown
  split at shown
  case h_1 time offset =>
    obtain rfl := Except.ok.inj shown
    have back := ofInner_of_covers covered
    rw [CivilTime.nanoseconds_ofNanoseconds] at back
    refine ⟨_, rfl, _, back, ?_⟩
    intro type inner
    refine .datetime ?_
    rw [Value.instant, CivilTime.nanoseconds_ofNanoseconds, zero_mul, sub_zero]
  case h_2 time =>
    obtain rfl := Except.ok.inj shown
    refine ⟨_, rfl, _, ofInner_of_covers covered, ?_⟩
    intro type inner
    exact .localDatetime (CivilTime.valid_ofNanoseconds _) (CivilTime.nanoseconds_ofNanoseconds _)
  case h_3 time =>
    obtain rfl := Except.ok.inj shown
    let cut := CivilTime.ofNanoseconds (Span.microseconds time.nanoseconds * 1000)
    refine ⟨_, rfl, .wideDatetime cut, ?_, ?_⟩
    · rw [Span.microseconds_mul]
      exact ofInner_of_covers covered
    · intro type inner
      exact .wideDatetime (CivilTime.valid_ofNanoseconds _) (CivilTime.nanoseconds_ofNanoseconds _)
  case h_4 => simp at shown

theorem recovers_timestamp {inner : Codec}
    (scalar : ∀ nanoseconds, inner.Recovers (.duration nanoseconds)) (type : Uuid)
    (kind : TimestampKind) {value : Value} (covered : value.Covered) :
    (Codec.timestamp type inner kind).Recovers value := by
  unfold Codec.Recovers
  rw [Codec.write]
  refine Writes.leaves_ofExcept_bind fun held shown => ?_
  obtain ⟨nanoseconds, rfl, decoded, back, settled⟩ :=
    TimestampKind.ofInner_toInner covered shown
  refine (scalar nanoseconds).mono ?_
  rintro bytes ⟨cut, taken, kept⟩
  obtain rfl := kept.eq_of_duration
  exact ⟨decoded, taken.then (Reads.takes_ofExcept back), settled type inner⟩

theorem recovers_enumeration (type : Uuid) (members : List String) (value : Value) :
    (Codec.enumeration type members).Recovers value := by
  have named {value : Value} {name : String}
      (settled : Settles (.enumeration type members) value (.member name)) :
      (Codec.writeMember type members name).Leaves fun bytes => ∃ decoded,
        Reads.TakesAll (Codec.enumeration type members).read bytes decoded ∧
          Settles (.enumeration type members) value decoded := by
    refine Writes.leaves_ofExcept_bind fun _ checked => ?_
    refine (Writes.adds_put _).leaves ⟨.member name, ?_, settled⟩
    refine takesAll_text .enumeration name ?_
    exact (Reads.takes_ofExcept checked).bind (Reads.takes_pure _)
  unfold Codec.Recovers Codec.write
  split
  case h_1 name => exact named .member
  case h_2 name => exact named .name
  case h_3 => exact Writes.leaves_throw _

/-! ## Arrays -/

theorem takes_within {read : Reads Value} {bytes : List UInt8} {value : Value}
    (taken : Reads.TakesAll read bytes value) :
    Reads.Takes (Codec.readWithin read (some bytes)) [] (some value) := by
  have read := Reads.takes_ofExcept taken.run_whole
  exact read.then (Reads.takes_pure _)

/-- The read of an element of an array by its number. -/
def readElement (type : Uuid) (read : Reads Value) (index : Nat) : Reads Value := do
  let bytes ← Reads.element
  match ← Codec.readWithin read bytes with
  | some value => pure value
  | none => throw (.decode (.absentElement type index))

theorem takes_readElement {read : Reads Value} {bytes : List UInt8} {value : Value}
    (fits : bytes.length ≤ Misfit.lengthMax) (taken : Reads.TakesAll read bytes value)
    (type : Uuid) (index : Nat) :
    Reads.Takes (readElement type read index) (boxed bytes) value := by
  refine (Reads.takes_element fits).then ?_
  exact (takes_within taken).bind (Reads.takes_pure value)

theorem dimensionLength_eq (type : Uuid) {length : Nat} {upper : Int32}
    (fits : length ≤ Misfit.lengthMax) (counted : upper.toInt = length) :
    Codec.dimensionLength type upper 1 = .ok length := by
  have bounds : length ≤ 2 ^ 31 - 1 := fits
  have one : Int32.toInt 1 = 1 := rfl
  have inside : Misfit.of? 0 Misfit.countMax (upper.toInt - Int32.toInt 1 + 1) = none := by
    rw [Misfit.of?_eq_none_iff, counted, one, Misfit.countMax, UInt64.size]
    omega
  rw [Codec.dimensionLength, inside, counted, one]
  simp

theorem takes_readLength (type : Uuid) {length : Nat} (fits : length ≤ Misfit.lengthMax) :
    Reads.Takes (Codec.readLength type) (BigEndian.ofNat 4 length ++ BigEndian.ofNat 4 1)
      length := by
  obtain ⟨upper, counted, taken⟩ := Reads.takes_length fits
  refine taken.bind ((Reads.takes_int32 1).then ?_)
  exact Reads.takes_ofExcept (dimensionLength_eq type fits counted)

theorem SettlesEach.of_forall₂ {codec : Codec} {reads : List UInt8 → Value → Prop}
    {values : List Value} {chunks : List (List UInt8)}
    (each : List.Forall₂ (fun value chunk =>
      ∃ settled, reads chunk settled ∧ Settles codec value settled) values chunks) :
    ∃ decoded, List.Forall₂ reads chunks decoded ∧ SettlesEach codec values decoded := by
  induction each with
  | nil => exact ⟨[], .nil, .nil⟩
  | cons head _ ih =>
      obtain ⟨settled, read, kept⟩ := head
      obtain ⟨decoded, reads, rest⟩ := ih
      exact ⟨settled :: decoded, .cons read reads, .cons kept rest⟩

theorem SettlesEach.length_eq {codec : Codec} {values decoded : List Value}
    (each : SettlesEach codec values decoded) : decoded.length = values.length := by
  induction values generalizing decoded with
  | nil =>
      cases each
      rfl
  | cons value values ih =>
      cases each with
      | cons head rest => rw [List.length_cons, List.length_cons, ih rest]

theorem takes_readArray {read : Reads Value} {type : Uuid} {chunks : List (List UInt8)}
    {items : List Value} (fits : items.length ≤ Misfit.lengthMax)
    (each : List.Forall₂ (fun chunk item =>
      ∀ index, Reads.Takes (readElement type read index) chunk item) chunks items) :
    Reads.Takes (Codec.readArray type read)
      (BigEndian.ofNat 4 1 ++ (BigEndian.ofNat 4 0 ++ (BigEndian.ofNat 4 0 ++
        (BigEndian.ofNat 4 items.length ++ (BigEndian.ofNat 4 1 ++ chunks.flatten)))))
      (.array items) := by
  have flags : Reads.Takes (Reads.skip 8) (BigEndian.ofNat 4 0 ++ BigEndian.ofNat 4 0) () :=
    Reads.takes_skip (by simp)
  rw [← List.append_assoc (BigEndian.ofNat 4 0),
    ← List.append_assoc (BigEndian.ofNat 4 items.length)]
  refine (Reads.takes_int32 1).bind ?_
  refine flags.bind ?_
  refine (takes_readLength type fits).bind ?_
  exact (Reads.takes_numbered each).then (Reads.takes_pure (Value.array items))

theorem leaves_elements {element : Codec} {values : List Value}
    (elementwise : ∀ value ∈ values, element.Recovers value) (type : Uuid) :
    Writes.Leaves (Writes.each (fun value => Writes.lengthPrefixed (element.write value)) values)
      fun bytes => ∃ chunks decoded, bytes = chunks.flatten ∧
        List.Forall₂ (fun chunk item =>
          ∀ index, Reads.Takes (readElement type element.read index) chunk item) chunks decoded ∧
        SettlesEach element values decoded := by
  have boxes : ∀ value ∈ values,
      Writes.Leaves (Writes.lengthPrefixed (element.write value)) fun chunk =>
        ∃ settled, (∀ index, Reads.Takes (readElement type element.read index) chunk settled) ∧
          Settles element value settled := by
    intro value member
    refine Writes.leaves_lengthPrefixed ((elementwise value member).mono ?_)
    rintro bytes ⟨settled, taken, kept⟩ short
    exact ⟨settled, takes_readElement short taken type, kept⟩
  refine (Writes.leaves_each boxes).mono ?_
  rintro bytes ⟨chunks, rfl, suited⟩
  obtain ⟨decoded, reads, kept⟩ := SettlesEach.of_forall₂ suited
  exact ⟨chunks, decoded, rfl, reads, kept⟩

/-- An array is recovered if all of its elements are. -/
theorem recovers_array {element : Codec} {values : List Value}
    (elementwise : ∀ value ∈ values, element.Recovers value) (type : Uuid) :
    (Codec.array type element).Recovers (.array values) := by
  unfold Codec.Recovers
  rw [Codec.write, Codec.read, Codec.writeArray]
  split
  case isTrue empty =>
    obtain rfl := List.isEmpty_iff.1 empty
    have header := (Writes.adds_int32 0).bind ((Writes.adds_int32 0).bind (Writes.adds_int32 0))
    refine header.leaves ⟨_, ?_, .array .nil⟩
    refine ((Reads.takes_int32 0).bind ?_).takesAll
    exact Reads.Takes.then (Reads.takes_skip (by simp)) (Reads.takes_pure _)
  case isFalse =>
    refine (Writes.adds_int32 1).bindLeaves ?_
    refine (Writes.adds_int32 0).bindLeaves ?_
    refine (Writes.adds_int32 0).bindLeaves ?_
    refine Writes.leaves_ofExcept_bind fun word held => ?_
    obtain ⟨fits, rfl⟩ := Writes.lengthWord_eq_ok.1 held
    refine (Writes.adds_word32 _).bindLeaves ?_
    refine (Writes.adds_int32 1).bindLeaves ?_
    refine (leaves_elements elementwise type).mono ?_
    rintro back ⟨chunks, decoded, rfl, reads, kept⟩
    rw [Writes.toNat_lengthWord fits]
    rw [← kept.length_eq] at fits ⊢
    exact ⟨.array decoded, (takes_readArray fits reads).takesAll, .array kept⟩

/-! ## Tuples -/

theorem takes_readSlot {read : Reads Value} {bytes : List UInt8} {value : Value}
    (fits : bytes.length ≤ Misfit.lengthMax) (taken : Reads.TakesAll read bytes value) :
    Reads.Takes (Codec.readSlot read) (BigEndian.ofNat 4 0 ++ boxed bytes) (some value) := by
  refine Reads.Takes.bind (Reads.takes_skip (by simp)) ?_
  exact (Reads.takes_element fits).then (takes_within taken)

theorem takes_readSlot_absent (read : Reads Value) :
    Reads.Takes (Codec.readSlot read)
      (BigEndian.ofNat 4 0 ++ BigEndian.ofNat 4 (-1 : Int32).toUInt32.toNat) none := by
  refine Reads.Takes.bind (Reads.takes_skip (by simp)) ?_
  exact Reads.takes_element_absent.then (Reads.takes_pure none)

/-- The slots of a tuple are recovered after any others. -/
def RecoversSlots (codecs : List Codec) (slots : List (Option Value)) : Prop :=
  Writes.Leaves (Codec.writeSlots codecs slots) fun bytes =>
    ∃ decoded,
      (∀ done, Reads.Takes (Codec.readSlots codecs done) bytes (done.reverse ++ decoded)) ∧
        SettlesSlots codecs slots decoded

theorem recoversSlots_nil : RecoversSlots [] [] := by
  refine Writes.adds_pure.leaves ⟨[], ?_, .nil⟩
  intro done
  rw [Codec.readSlots, List.append_nil]
  exact Reads.takes_pure done.reverse

theorem RecoversSlots.absent {codecs : List Codec} {slots : List (Option Value)}
    (rest : RecoversSlots codecs slots) (codec : Codec) :
    RecoversSlots (codec :: codecs) (none :: slots) := by
  unfold RecoversSlots
  rw [Codec.writeSlots, Codec.writeSlot]
  refine ((Writes.adds_int32 0).bind (Writes.adds_int32 (-1))).bindLeaves (rest.mono ?_)
  rintro back ⟨decoded, reads, kept⟩
  refine ⟨none :: decoded, ?_, .absent kept⟩
  intro done
  rw [Codec.readSlots]
  refine (takes_readSlot_absent codec.read).bind ?_
  simpa using reads (none :: done)

theorem RecoversSlots.present {codecs : List Codec} {slots : List (Option Value)}
    (rest : RecoversSlots codecs slots) {codec : Codec} {value : Value}
    (head : codec.Recovers value) : RecoversSlots (codec :: codecs) (some value :: slots) := by
  have opened : Writes.Leaves (Codec.writeSlot codec.write (some value)) fun front =>
      ∃ settled, Reads.Takes (Codec.readSlot codec.read) front (some settled) ∧
        Settles codec value settled := by
    refine (Writes.adds_int32 0).bindLeaves (Writes.leaves_lengthPrefixed (head.mono ?_))
    rintro bytes ⟨settled, taken, kept⟩ fits
    exact ⟨settled, takes_readSlot fits taken, kept⟩
  unfold RecoversSlots
  rw [Codec.writeSlots]
  refine opened.bind fun front known => rest.mono ?_
  obtain ⟨settled, taken, kept⟩ := known
  rintro back ⟨decoded, reads, others⟩
  refine ⟨some settled :: decoded, ?_, .present kept others⟩
  intro done
  rw [Codec.readSlots]
  refine taken.bind ?_
  simpa using reads (some settled :: done)

/-- A tuple is recovered if its slots are. -/
theorem recovers_tuple {elements : List Codec} {slots : List (Option Value)}
    (each : slots.length = elements.length → RecoversSlots elements slots) (type : Uuid) :
    (Codec.tuple type elements).Recovers (.tuple slots) := by
  unfold Codec.Recovers
  rw [Codec.write, Codec.read]
  split
  case isFalse => exact Writes.leaves_throw _
  case isTrue paired =>
    refine Writes.leaves_ofExcept_bind fun word held => ?_
    obtain ⟨fits, rfl⟩ := Writes.lengthWord_eq_ok.1 held
    refine (Writes.adds_word32 _).bindLeaves ((each paired).mono ?_)
    rintro back ⟨decoded, reads, kept⟩
    obtain ⟨count, counted, taken⟩ := Reads.takes_length fits
    rw [Writes.toNat_lengthWord fits]
    refine ⟨.tuple decoded, (taken.bind ?_).takesAll, .tuple kept⟩
    rw [counted, paired, if_pos rfl]
    exact (reads []).then (Reads.takes_pure _)

/-! ## All codecs -/

mutual

/-- Every codec recovers a value whose timestamps are covered by their types. -/
theorem Codec.recovers : (codec : Codec) → (value : Value) →
    (∀ leaf ∈ value.leaves, leaf.Covered) → codec.Recovers value
  | .scalar type kind, value, _ => kind.recovers type value
  | .timestamp type inner kind, value, covered =>
      recovers_timestamp
        (fun nanoseconds => inner.recovers _ (Value.covered_leaves_duration nanoseconds))
        type kind (Value.covered_of_leaves covered)
  | .enumeration type members, value, _ => recovers_enumeration type members value
  | .set type element, value, _ => Writes.leaves_throw _
  | .array type element, value, covered => by
      cases value with
      | array values =>
          refine recovers_array (fun value member => element.recovers value ?_) type
          intro leaf inside
          exact covered leaf (Value.mem_leaves_of_mem member inside)
      | _ => exact Writes.leaves_throw _
  | .tuple type elements, value, covered => by
      cases value with
      | tuple slots => exact recovers_tuple (recoversSlots elements slots covered) type
      | _ => exact Writes.leaves_throw _

theorem recoversSlots : (codecs : List Codec) → (slots : List (Option Value)) →
    (∀ leaf ∈ Value.slotLeaves slots, leaf.Covered) → slots.length = codecs.length →
    RecoversSlots codecs slots
  | [], [], _, _ => recoversSlots_nil
  | codec :: codecs, none :: slots, covered, paired =>
      (recoversSlots codecs slots covered (Nat.succ.inj paired)).absent codec
  | codec :: codecs, some value :: slots, covered, paired => by
      rw [Value.slotLeaves, List.forall_mem_append] at covered
      exact (recoversSlots codecs slots covered.2 (Nat.succ.inj paired)).present
        (codec.recovers value covered.1)

end

/-- The bytes of a value whose timestamps are covered by their types are read back as what the
codec makes of the value. -/
theorem Codec.decode_of_encode (codec : Codec) (value : Value) (bytes : List UInt8)
    (covered : ∀ leaf ∈ value.leaves, leaf.Covered)
    (written : codec.encode (some value) = .ok bytes) :
    ∃ decoded, codec.decode (some bytes) = .ok (some decoded) ∧ Settles codec value decoded := by
  rw [encode, writeOptional, Writes.run] at written
  split at written
  case h_2 => simp at written
  case h_1 after done =>
    obtain ⟨left, rfl, decoded, taken, settled⟩ := codec.recovers value covered done
    have same : left = bytes := by simpa [Draft.after] using Except.ok.inj written
    refine ⟨decoded, ?_, settled⟩
    rw [decode, ← same, taken.run_whole]

/-- A tuple of an array of members, an instant and a number. -/
def tupleSample : Codec :=
  .tuple (.ofLow 1) [.array (.ofLow 2) (.enumeration (.ofLow 3) ["Red", "Green"]),
    .timestamp (.ofLow 4) (.scalar (.ofLow 5) .duration) .datetime, .scalar (.ofLow 6) .int32]

/-- A member by its name, an instant one and a half microseconds before the year 2000 on a clock
that is an hour ahead, and no number. -/
def valueSample : Value :=
  .tuple [some (.array [.text "Red"]),
    some (.datetime ⟨⟨2000, 1, 1⟩, 0, 59, 59, 999998500⟩ 3600), none]

theorem decode_of_encode_sample :
    (∀ leaf ∈ valueSample.leaves, leaf.Covered) ∧
      ∃ bytes, tupleSample.encode (some valueSample) = .ok bytes ∧
        ∃ decoded, tupleSample.decode (some bytes) = .ok (some decoded) ∧
          Settles tupleSample valueSample decoded := by
  have covered : ∀ leaf ∈ valueSample.leaves, leaf.Covered := by decide
  exact ⟨covered, _, rfl, Codec.decode_of_encode tupleSample valueSample _ covered rfl⟩

end SchemaWire
