import SchemaWire.Proofs.Codec.RoundTrip
import SchemaWire.Proofs.Wire.Taking

/-!
# Values that conform to codecs

Whatever bytes a codec reads, the value that it gives is one of its type: a scalar or a timestamp
of the right sort, a listed member, an array without gaps, a tuple with as many slots as the codec
has elements.  The induction follows the codec; it rests on what each part of a read can give.
-/

namespace SchemaWire

open Reads

/-- The sort of the values of a kind of scalar. -/
def ScalarKind.valueKind : ScalarKind → Value.Kind
  | .uuid => .uuid
  | .text => .text
  | .bytes => .bytes
  | .int16 => .int16
  | .int32 => .int32
  | .int64 => .int64
  | .float32 => .float32
  | .float64 => .float64
  | .bool => .bool
  | .json => .json
  | .duration => .duration

/-- The sort of the values of a type of timestamp. -/
def TimestampKind.valueKind : TimestampKind → Value.Kind
  | .datetime => .datetime
  | .localDatetime => .localDatetime
  | .wideDatetime => .wideDatetime

mutual

/-- A value is one of the type of a codec.  Timestamps stand on the wire as spans, so those over
another inner codec have no values. -/
inductive Conforms : Codec → Value → Prop where
  | scalar {type : Uuid} {kind : ScalarKind} {value : Value}
      (matching : value.kind = kind.valueKind) : Conforms (.scalar type kind) value
  | timestamp {type inner : Uuid} {kind : TimestampKind} {value : Value}
      (matching : value.kind = kind.valueKind) :
      Conforms (.timestamp type (.scalar inner .duration) kind) value
  | member {type : Uuid} {members : List String} {name : String} (listed : name ∈ members) :
      Conforms (.enumeration type members) (.member name)
  | set {type : Uuid} {element : Codec} {slots : List (Option Value)}
      (each : ∀ value, some value ∈ slots → Conforms element value) :
      Conforms (.set type element) (.set slots)
  | array {type : Uuid} {element : Codec} {elements : List Value}
      (each : ∀ value ∈ elements, Conforms element value) :
      Conforms (.array type element) (.array elements)
  | tuple {type : Uuid} {codecs : List Codec} {slots : List (Option Value)}
      (each : ConformsSlots codecs slots) : Conforms (.tuple type codecs) (.tuple slots)

/-- Slots are as many as codecs, and each is empty or holds a value of the type of its codec. -/
inductive ConformsSlots : List Codec → List (Option Value) → Prop where
  | nil : ConformsSlots [] []
  | absent {codec : Codec} {codecs : List Codec} {slots : List (Option Value)}
      (rest : ConformsSlots codecs slots) : ConformsSlots (codec :: codecs) (none :: slots)
  | present {codec : Codec} {codecs : List Codec} {value : Value} {slots : List (Option Value)}
      (head : Conforms codec value) (rest : ConformsSlots codecs slots) :
      ConformsSlots (codec :: codecs) (some value :: slots)

end

/-! ## Scalars and timestamps -/

/-- The values that a kind of scalar has, each with the number of its bytes. -/
inductive ScalarKind.Holds : ScalarKind → Nat → Value → Prop where
  | uuid (id : Uuid) : Holds .uuid 16 (.uuid id)
  | text (text : String) : Holds .text (Utf8.encode text).length (.text text)
  | bytes (bytes : List UInt8) : Holds .bytes bytes.length (.bytes bytes)
  | int16 (number : Int16) : Holds .int16 2 (.int16 number)
  | int32 (number : Int32) : Holds .int32 4 (.int32 number)
  | int64 (number : Int64) : Holds .int64 8 (.int64 number)
  | float32 (bits : UInt32) : Holds .float32 4 (.float32 bits)
  | float64 (bits : UInt64) : Holds .float64 8 (.float64 bits)
  | bool (truth : Bool) : Holds .bool 1 (.bool truth)
  | json (text : String) : Holds .json (1 + (Utf8.encode text).length) (.json text)
  | duration (microseconds : Int64) : Holds .duration 16 (.duration (microseconds.toInt * 1000))

theorem ScalarKind.Holds.kind_eq {kind : ScalarKind} {length : Nat} {value : Value}
    (held : kind.Holds length value) : value.kind = kind.valueKind := by
  cases held <;> rfl

/-- A text that is all that is left. -/
theorem gives_text {α : Type} (place : TextPlace) {next : String → Reads α}
    {known : List UInt8 → α → Prop}
    (tail : ∀ text, Gives (next text) fun back value => known (Utf8.encode text ++ back) value) :
    Gives (do
      let bytes ← rest
      let text ← Reads.ofExcept (textOf place bytes)
      next text) known := by
  refine gives_rest.bind fun bytes _ same => ?_
  subst same
  refine gives_ofExcept_bind fun text held => ?_
  rw [← encode_of_textOf held]
  exact tail text

theorem ScalarKind.holds_of_read (kind : ScalarKind) :
    Gives kind.read fun bytes value => kind.Holds bytes.length value := by
  -- Where all that is read is a plain item, its length is known.
  have plain {α : Type} {read : Reads α} {length : Nat} {view : α → Value}
      (given : Gives read fun bytes _ => bytes.length = length)
      (held : ∀ item, kind.Holds length (view item)) :
      Gives (view <$> read) fun bytes value => kind.Holds bytes.length value := by
    refine Gives.map (given.mono ?_)
    rintro bytes item rfl
    exact held item
  cases kind with
  | uuid => exact plain gives_uuid .uuid
  | text =>
      refine gives_text .scalar fun text => gives_pure ?_
      rw [List.append_nil]
      exact .text text
  | bytes =>
      refine Gives.map (gives_rest.mono ?_)
      rintro _ value rfl
      exact .bytes value
  | int16 => exact plain gives_int16 .int16
  | int32 => exact plain gives_int32 .int32
  | int64 => exact plain gives_int64 .int64
  | float32 => exact plain gives_float32 .float32
  | float64 => exact plain gives_float64 .float64
  | bool =>
      refine gives_byte.bind fun front byte one => ?_
      have held (truth : Bool) : Holds .bool (front ++ []).length (.bool truth) := by
        rw [List.append_nil, one]
        exact .bool truth
      split
      · exact gives_pure (held false)
      · split
        · exact gives_pure (held true)
        · exact gives_throw _
  | json =>
      refine gives_byte.bind fun front format one => ?_
      split
      case isFalse => exact gives_throw _
      case isTrue =>
        refine gives_text .scalar fun text => gives_pure ?_
        rw [List.append_nil, List.length_append, one]
        exact .json text
  | duration =>
      refine gives_int64.bind fun front microseconds eight => ?_
      refine (gives_skip 8).bind fun back _ rest => ?_
      apply gives_pure
      rw [List.append_nil, List.length_append, eight, rest]
      exact .duration microseconds

theorem TimestampKind.ofInner_eq_ok {kind : TimestampKind} {inner value : Value}
    (shown : kind.ofInner inner = .ok value) :
    ∃ nanoseconds time, inner = .duration nanoseconds ∧ kind.time? nanoseconds = some time ∧
      value = kind.valueOf time := by
  unfold ofInner at shown
  split at shown
  case h_2 => simp at shown
  case h_1 nanoseconds =>
    split at shown
    case h_2 => simp at shown
    case h_1 time inside => exact ⟨nanoseconds, time, rfl, inside, (Except.ok.inj shown).symm⟩

theorem TimestampKind.kind_valueOf (kind : TimestampKind) (time : CivilTime) :
    (kind.valueOf time).kind = kind.valueKind := by
  cases kind <;> rfl

/-- Only the scalar for spans has spans as values. -/
theorem Conforms.eq_of_duration {codec : Codec} {nanoseconds : Int}
    (conforms : Conforms codec (.duration nanoseconds)) :
    ∃ type, codec = .scalar type .duration := by
  cases conforms with
  | @scalar type kind _ matching => cases kind <;> first | exact ⟨type, rfl⟩ | cases matching
  | @timestamp _ _ kind _ matching => cases kind <;> cases matching

/-! ## Elements -/

section Elements

variable {read : Reads Value} {known : List UInt8 → Value → Prop}

theorem gives_readWithin (given : Gives read known) (payload : Option (List UInt8)) :
    Gives (Codec.readWithin read payload) fun bytes slot =>
      bytes = [] ∧ Option.Rel known payload slot := by
  cases payload with
  | none => exact gives_pure ⟨rfl, .none⟩
  | some bytes =>
      refine gives_ofExcept_bind fun value done => ?_
      exact gives_pure ⟨rfl, .some (given.of_run_whole done)⟩

theorem gives_readElement (given : Gives read known) (type : Uuid) (index : Nat) :
    Gives (readElement type read index) fun bytes value =>
      ∃ payload, bytes.length = (boxed payload).length ∧ known payload value := by
  refine gives_element.bind fun front payload sized => ?_
  refine (gives_readWithin given payload).bind fun middle slot within => ?_
  obtain ⟨rfl, related⟩ := within
  cases related with
  | none => exact gives_throw _
  | @some payload value sure =>
      refine gives_pure ⟨payload, ?_, sure⟩
      rw [List.append_nil, List.append_nil, sized, length_boxed]
      rfl

theorem gives_readLength (type : Uuid) :
    Gives (Codec.readLength type) fun bytes _ => bytes.length = 8 := by
  refine gives_int32.bind fun front upper first => ?_
  refine gives_int32.bind fun back lower second => ?_
  refine gives_ofExcept fun length _ => ?_
  simp [first, second]

theorem payloads_of_chunks {chunks : List (List UInt8)} {elements : List Value}
    (each : List.Forall₂ (fun chunk value =>
      ∃ payload, chunk.length = (boxed payload).length ∧ known payload value) chunks elements) :
    ∃ payloads, List.Forall₂ known payloads elements ∧
      chunks.flatten.length = (payloads.map boxed).flatten.length := by
  induction each with
  | nil => exact ⟨[], .nil, rfl⟩
  | cons head _ ih =>
      obtain ⟨payload, sized, sure⟩ := head
      obtain ⟨payloads, others, total⟩ := ih
      refine ⟨payload :: payloads, .cons sure others, ?_⟩
      rw [List.flatten_cons, List.length_append, sized, total, List.map_cons, List.flatten_cons,
        List.length_append]

/-- An array takes twelve bytes at least, and if it has elements then eight bytes more and those of
its elements in their boxes. -/
theorem gives_readArray (given : Gives read known) (type : Uuid) :
    Gives (Codec.readArray type read) fun bytes value =>
      ∃ payloads elements, value = .array elements ∧ List.Forall₂ known payloads elements ∧
        12 ≤ bytes.length ∧
        (elements ≠ [] → bytes.length = 20 + (payloads.map boxed).flatten.length) := by
  refine gives_int32.bind fun front dimensions four => ?_
  refine (gives_skip 8).bind fun flags _ eight => ?_
  split
  case isTrue =>
    refine gives_pure ⟨[], [], rfl, .nil, ?_, ?_⟩
    · simp [four, eight]
    · intro filled
      exact absurd rfl filled
  case isFalse =>
    split
    case isFalse => exact gives_throw _
    case isTrue =>
      refine (gives_readLength type).bind fun bounds length sized => ?_
      refine Gives.map ((gives_numbered (gives_readElement given type) length).mono ?_)
      rintro back elements ⟨chunks, rfl, -, each⟩
      obtain ⟨payloads, sure, total⟩ := payloads_of_chunks each
      have long : (front ++ (flags ++ (bounds ++ chunks.flatten))).length =
          20 + (payloads.map boxed).flatten.length := by
        simp only [List.length_append, four, eight, sized, total]
        omega
      refine ⟨payloads, elements, rfl, sure, by omega, ?_⟩
      intro filled
      exact long

theorem gives_readSlot (given : Gives read known) :
    Gives (Codec.readSlot read) fun bytes slot =>
      ∃ payload, bytes.length = 4 + byteArraySize payload ∧ Option.Rel known payload slot := by
  refine (gives_skip 4).bind fun front _ four => ?_
  refine gives_element.bind fun middle payload sized => ?_
  refine (gives_readWithin given payload).mono ?_
  rintro back slot ⟨rfl, related⟩
  refine ⟨payload, ?_, related⟩
  rw [List.append_nil, List.length_append, four, sized]

theorem gives_readEnveloped (given : Gives read known) (type : Uuid) :
    Gives (Codec.readEnveloped type read) fun _ slot =>
      ∀ value, slot = some value → ∃ payload, known payload value := by
  refine (gives_skip 4).bind fun _ _ _ => ?_
  refine gives_int32.bind fun _ count _ => ?_
  split
  case isFalse => exact gives_throw _
  case isTrue =>
    refine (gives_skip 4).bind fun _ _ _ => ?_
    refine Gives.map (given.mono ?_)
    rintro payload value sure other same
    obtain rfl := Option.some.inj same
    exact ⟨payload, sure⟩

theorem forall_mem_of_forall₂ {α : Type} {holds : α → Prop} {chunks : List (List UInt8)}
    {slots : List α} (each : List.Forall₂ (fun _ slot => holds slot) chunks slots) :
    ∀ slot ∈ slots, holds slot := by
  induction each with
  | nil => simp
  | cons head _ ih => exact List.forall_mem_cons.2 ⟨head, ih⟩

/-- The slots of a set are empty, or hold what the codec of its elements gives. -/
theorem gives_readSet (given : Gives read known) (type : Uuid) (enveloped : Bool) :
    Gives (Codec.readSet type enveloped read) fun _ value =>
      ∃ slots, value = .set slots ∧
        ∀ value, some value ∈ slots → ∃ payload, known payload value := by
  have slotwise {reads : Nat → Reads (Option Value)}
      (one : ∀ index, Gives (reads index) fun _ slot =>
        ∀ value, slot = some value → ∃ payload, known payload value) (length : Nat) :
      Gives (numbered reads length) fun _ slots =>
        ∀ value, some value ∈ slots → ∃ payload, known payload value := by
    refine (gives_numbered one length).mono ?_
    rintro bytes slots ⟨chunks, -, -, each⟩ value member
    exact forall_mem_of_forall₂ each (some value) member value rfl
  refine gives_int32.bind fun _ dimensions _ => ?_
  split
  case isTrue =>
    refine gives_atEnd.bind fun _ ended _ => ?_
    dsimp only
    split
    case isTrue => exact gives_pure ⟨[], rfl, by simp⟩
    case isFalse =>
      refine (gives_skip 8).bind fun _ _ _ => ?_
      exact gives_pure ⟨[], rfl, by simp⟩
  case isFalse =>
    split
    case isFalse => exact gives_throw _
    case isTrue =>
      refine (gives_skip 8).bind fun _ _ _ => ?_
      refine (gives_readLength type).bind fun _ length _ => ?_
      split
      case isTrue =>
        refine Gives.map ((slotwise (fun _ => gives_readEnveloped given type) length).mono ?_)
        intro bytes slots each
        exact ⟨slots, rfl, each⟩
      case isFalse =>
        refine Gives.map ((slotwise (fun _ => ?_) length).mono ?_)
        · refine gives_byteArray.bind fun _ payload _ => ?_
          refine (gives_readWithin given payload).mono ?_
          rintro bytes slot ⟨-, related⟩ value rfl
          cases related with
          | @some payload _ sure => exact ⟨payload, sure⟩
        · intro bytes slots each
          exact ⟨slots, rfl, each⟩

end Elements

/-! ## All codecs -/

mutual

/-- What a codec gives is a value of its type. -/
theorem Codec.conforms_of_read : (codec : Codec) →
    Gives codec.read fun _ value => Conforms codec value
  | .scalar type kind => kind.holds_of_read.mono fun _ _ held => .scalar held.kind_eq
  | .timestamp type inner kind => by
      refine inner.conforms_of_read.bind fun _ held conforms => gives_ofExcept fun value shown => ?_
      obtain ⟨nanoseconds, time, rfl, -, rfl⟩ := TimestampKind.ofInner_eq_ok shown
      obtain ⟨_, rfl⟩ := conforms.eq_of_duration
      exact .timestamp (kind.kind_valueOf time)
  | .enumeration type members => by
      refine gives_text .enumeration fun name => gives_ofExcept_bind fun _ checked => ?_
      refine gives_pure (.member ?_)
      rw [Codec.checkMember] at checked
      split at checked
      case isTrue listed => exact listed
      case isFalse => simp at checked
  | .set type element => by
      refine (gives_readSet element.conforms_of_read type element.isEnveloped).mono ?_
      rintro bytes value ⟨slots, rfl, each⟩
      refine .set fun value member => ?_
      obtain ⟨_, conforms⟩ := each value member
      exact conforms
  | .array type element => by
      refine (gives_readArray element.conforms_of_read type).mono ?_
      rintro bytes value ⟨payloads, elements, rfl, each, -⟩
      exact .array (forall_mem_of_forall₂ each)
  | .tuple type codecs => by
      refine gives_int32.bind fun _ count _ => ?_
      split
      case isFalse => exact gives_throw _
      case isTrue =>
        refine Gives.map ((conformsSlots_of_read codecs []).mono ?_)
        rintro bytes slots ⟨more, rfl, each⟩
        exact .tuple each

theorem conformsSlots_of_read : (codecs : List Codec) → (done : List (Option Value)) →
    Gives (Codec.readSlots codecs done) fun _ slots =>
      ∃ more, slots = done.reverse ++ more ∧ ConformsSlots codecs more
  | [], done => gives_pure ⟨[], (List.append_nil _).symm, .nil⟩
  | codec :: codecs, done => by
      refine (gives_readSlot codec.conforms_of_read).bind fun _ slot known => ?_
      obtain ⟨payload, -, related⟩ := known
      refine (conformsSlots_of_read codecs (slot :: done)).mono ?_
      rintro bytes slots ⟨more, rfl, each⟩
      refine ⟨slot :: more, by simp, ?_⟩
      cases related with
      | none => exact .absent each
      | some conforms => exact .present conforms each

end

end SchemaWire
