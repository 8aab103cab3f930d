import SchemaWire.Proofs.Wire.Drafting
import SchemaWire.Wire.Field

/-!
# Fields take their size

The bytes of a field are as many as its size says.  On a draft that has room for them, writing the
field either adds just these bytes or is refused for a number that its place on the wire cannot
hold: a list longer than sixteen bits count, or a byte string longer than a length.  Which of the
two happens is known from the field alone.
-/

namespace SchemaWire

/-! ## The bytes of fields -/

/-- A byte string after its length, or minus one in the place of an absent one. -/
def boxed? : Option (List UInt8) → List UInt8
  | none => BigEndian.ofNat 4 (-1 : Int32).toUInt32.toNat
  | some bytes => boxed bytes

/-- Items after their number. -/
def listed {α : Type} (bytes : α → List UInt8) (items : List α) : List UInt8 :=
  BigEndian.ofNat 2 items.length ++ items.flatMap bytes

namespace NamedText

/-- The bytes of a named text. -/
def bytes (item : NamedText) : List UInt8 :=
  boxed (Utf8.encode item.name) ++ boxed (Utf8.encode item.value)

/-- The lengths of a named text can be written. -/
def Fits (item : NamedText) : Prop :=
  (Utf8.encode item.name).length ≤ Misfit.lengthMax ∧
    (Utf8.encode item.value).length ≤ Misfit.lengthMax

end NamedText

namespace Attribute

/-- The bytes of an attribute. -/
def bytes (item : Attribute) : List UInt8 :=
  BigEndian.ofNat 2 item.code.toNat ++ boxed? item.value

/-- The length of an attribute can be written. -/
def Fits (item : Attribute) : Prop :=
  (item.value.getD []).length ≤ Misfit.lengthMax

end Attribute

namespace Extension

/-- The bytes of an extension. -/
def bytes (item : Extension) : List UInt8 :=
  boxed (Utf8.encode item.name) ++ listed NamedText.bytes item.annotations

/-- The lengths and the number of annotations of an extension can be written. -/
def Fits (item : Extension) : Prop :=
  (Utf8.encode item.name).length ≤ Misfit.lengthMax ∧
    item.annotations.length ≤ 65535 ∧ ∀ annotation ∈ item.annotations, annotation.Fits

end Extension

namespace Field

mutual

/-- The bytes of a field. -/
def bytes : Field → List UInt8
  | .byte value => [value]
  | .bool value => [if value then 1 else 0]
  | .int16 value => BigEndian.ofNat 2 value.toUInt16.toNat
  | .word16 value => BigEndian.ofNat 2 value.toNat
  | .int32 value => BigEndian.ofNat 4 value.toUInt32.toNat
  | .word32 value => BigEndian.ofNat 4 value.toNat
  | .int64 value => BigEndian.ofNat 8 value.toUInt64.toNat
  | .word64 value => BigEndian.ofNat 8 value.toNat
  | .float32 bits => BigEndian.ofNat 4 bits.toNat
  | .float64 bits => BigEndian.ofNat 8 bits.toNat
  | .uuid id => id.bytes
  | .raw bytes => bytes
  | .byteArray bytes => boxed? bytes
  | .text content => boxed (Utf8.encode content)
  | .named items => listed NamedText.bytes items
  | .attributes items => listed Attribute.bytes items
  | .extension item => item.bytes
  | .extensions items => listed Extension.bytes items
  | .lengthPrefixed fields => boxed (bytesAll fields)

/-- The bytes of fields one after the other. -/
def bytesAll : List Field → List UInt8
  | [] => []
  | field :: fields => bytes field ++ bytesAll fields

end

mutual

/-- The lengths and numbers of listed items in a field can be written. -/
def Fits : Field → Prop
  | .byte _ | .bool _ | .int16 _ | .word16 _ | .int32 _ | .word32 _ | .int64 _ | .word64 _
  | .float32 _ | .float64 _ | .uuid _ | .raw _ => True
  | .byteArray bytes => (bytes.getD []).length ≤ Misfit.lengthMax
  | .text content => (Utf8.encode content).length ≤ Misfit.lengthMax
  | .named items => items.length ≤ 65535 ∧ ∀ item ∈ items, item.Fits
  | .attributes items => items.length ≤ 65535 ∧ ∀ item ∈ items, item.Fits
  | .extension item => item.Fits
  | .extensions items => items.length ≤ 65535 ∧ ∀ item ∈ items, item.Fits
  | .lengthPrefixed fields => FitsAll fields ∧ (bytesAll fields).length ≤ Misfit.lengthMax

/-- The lengths and numbers of listed items in fields can be written. -/
def FitsAll : List Field → Prop
  | [] => True
  | field :: fields => Fits field ∧ FitsAll fields

end

end Field

/-! ## Sizes -/

theorem length_boxed? (bytes : Option (List UInt8)) :
    (boxed? bytes).length = byteArraySize bytes := by
  cases bytes with
  | none => rfl
  | some bytes => exact length_boxed bytes

theorem arraySize_cons {α : Type} (size : α → Nat) (item : α) (items : List α) :
    arraySize size (item :: items) = size item + arraySize size items := by
  have start (first : Nat) : items.foldl (fun total item => total + size item) first =
      first + items.foldl (fun total item => total + size item) 0 := by
    induction items generalizing first with
    | nil => rfl
    | cons other items ih =>
        rw [List.foldl_cons, ih, List.foldl_cons, ih (0 + size other)]
        omega
  rw [arraySize, List.foldl_cons, start, arraySize, start 2]
  omega

theorem length_listed {α : Type} {bytes : α → List UInt8} {size : α → Nat} (items : List α)
    (one : ∀ item, (bytes item).length = size item) :
    (listed bytes items).length = arraySize size items := by
  rw [listed, List.length_append, BigEndian.length_ofNat]
  induction items with
  | nil => rfl
  | cons item items ih =>
      rw [arraySize_cons, List.flatMap_cons, List.length_append, one, ← ih]
      omega

theorem size_le_arraySize {α : Type} (size : α → Nat) {item : α} {items : List α}
    (member : item ∈ items) : size item ≤ arraySize size items := by
  induction items with
  | nil => simp at member
  | cons first items ih =>
      rw [arraySize_cons]
      rcases List.mem_cons.1 member with rfl | member
      · omega
      · calc
          size item ≤ arraySize size items := ih member
          _ ≤ size first + arraySize size items := Nat.le_add_left _ _

theorem NamedText.length_bytes (item : NamedText) : item.bytes.length = item.size := by
  rw [bytes, List.length_append, length_boxed, length_boxed, size, textSize, textSize]

theorem Attribute.length_bytes (item : Attribute) : item.bytes.length = item.size := by
  rw [bytes, List.length_append, BigEndian.length_ofNat, length_boxed?, size]

theorem Extension.length_bytes (item : Extension) : item.bytes.length = item.size := by
  rw [bytes, List.length_append, length_boxed, length_listed _ NamedText.length_bytes, size,
    textSize]

mutual

theorem Field.length_bytes : (field : Field) → field.bytes.length = field.size
  | .byte _ | .bool _ => rfl
  | .int16 _ | .word16 _ | .int32 _ | .word32 _ | .int64 _ | .word64 _ | .float32 _
  | .float64 _ => BigEndian.length_ofNat _ _
  | .uuid id => by simp [Field.bytes, Field.size, Uuid.bytes]
  | .raw _ => rfl
  | .byteArray bytes => length_boxed? bytes
  | .text content => length_boxed (Utf8.encode content)
  | .named items => length_listed items NamedText.length_bytes
  | .attributes items => length_listed items Attribute.length_bytes
  | .extension item => item.length_bytes
  | .extensions items => length_listed items Extension.length_bytes
  | .lengthPrefixed fields => by
      rw [Field.bytes, length_boxed, Field.length_bytesAll fields, Field.size]

theorem Field.length_bytesAll : (fields : List Field) →
    (Field.bytesAll fields).length = Field.sizeAll fields
  | [] => rfl
  | field :: fields => by
      rw [Field.bytesAll, List.length_append, Field.length_bytes field,
        Field.length_bytesAll fields, Field.sizeAll]

end

/-! ## Writes that are settled beforehand -/

namespace Writes

open Fallible

variable {draft : Draft} {write first second : Writes Unit} {bytes front back : List UInt8}
  {fits more : Prop}

/-- A write fails on every draft that has room for some bytes, and not for want of room. -/
def Refuses (write : Writes Unit) (length : Nat) : Prop :=
  ∀ ⦃draft : Draft⦄, draft.Room length →
    ∃ cause after, write draft = .error (.encode cause) after

/-- Whether a write adds its bytes to a draft that has room for them is known beforehand. -/
structure Settles (write : Writes Unit) (bytes : List UInt8) (fits : Prop) : Prop where
  emits : fits → Emits write bytes
  refuses : ¬ fits → Refuses write bytes.length

theorem Emits.settles (emitted : Emits write bytes) : Settles write bytes True := by
  constructor
  · intro _
    exact emitted
  · intro never
    exact absurd trivial never

theorem Settles.bind (head : Settles first front fits) (tail : Settles second back more) :
    Settles (do first; second) (front ++ back) (fits ∧ more) := by
  constructor
  · rintro ⟨good, also⟩
    exact (head.emits good).bind (tail.emits also)
  · intro fails draft room
    rw [List.length_append] at room
    have begun : draft.Room front.length := room.mono (Nat.le_add_right _ _)
    -- A head that fits leaves the tail its room, so the tail is not refused for want of it.
    by_cases good : fits
    · obtain ⟨cause, after, failed⟩ := tail.refuses (fun also => fails ⟨good, also⟩) room.add
      refine ⟨cause, after, ?_⟩
      rw [bind_apply_ok (head.emits good begun), failed]
    · obtain ⟨cause, after, failed⟩ := head.refuses good begun
      exact ⟨cause, after, bind_apply_error failed⟩

theorem settles_byteArray (bytes : Option (List UInt8)) :
    Settles (byteArray bytes) (boxed? bytes) ((bytes.getD []).length ≤ Misfit.lengthMax) := by
  cases bytes with
  | none =>
      constructor
      · intro _
        exact emits_int32 (-1)
      · intro never
        exact absurd (Nat.zero_le _) never
  | some bytes =>
      constructor
      · intro fits
        exact emits_byteArray fits
      · intro long draft room
        rw [boxed?, length_boxed] at room
        exact ⟨_, draft, byteArray_of_long room (Nat.not_le.1 long)⟩

theorem settles_text (content : String) :
    Settles (text content) (boxed (Utf8.encode content))
      ((Utf8.encode content).length ≤ Misfit.lengthMax) :=
  settles_byteArray (some (Utf8.encode content))

theorem settles_each {α : Type} {write : α → Writes Unit} {bytes : α → List UInt8}
    {fits : α → Prop} (one : ∀ item, Settles (write item) (bytes item) (fits item))
    (items : List α) :
    Settles (each write items) (items.flatMap bytes) (∀ item ∈ items, fits item) := by
  induction items with
  | nil =>
      constructor
      · intro _
        exact emits_pure
      · intro never
        simp at never
  | cons item items ih =>
      rw [List.forall_mem_cons]
      exact (one item).bind ih

theorem toNat_countWord {count : Nat} (fits : count ≤ 65535) :
    (UInt16.ofNat count).toNat = count := by
  rw [UInt16.toNat_ofNat', Nat.mod_eq_of_lt]
  exact Nat.lt_of_le_of_lt fits (by decide)

theorem settles_array {α : Type} {write : α → Writes Unit} {bytes : α → List UInt8}
    {fits : α → Prop} (one : ∀ item, Settles (write item) (bytes item) (fits item))
    (items : List α) :
    Settles (array write items) (listed bytes items)
      (items.length ≤ 65535 ∧ ∀ item ∈ items, fits item) := by
  by_cases few : items.length ≤ 65535
  · have counted : countWord items.length = .ok (UInt16.ofNat items.length) := if_pos few
    have number : Emits (word16 (UInt16.ofNat items.length)) (BigEndian.ofNat 2 items.length) := by
      rw [word16, toNat_countWord few]
      exact emits_put _
    have whole := number.settles.bind (settles_each one items)
    constructor
    · rintro ⟨-, each⟩
      exact emits_ofExcept_bind counted (whole.emits ⟨trivial, each⟩)
    · intro fails draft room
      obtain ⟨cause, after, failed⟩ := whole.refuses (fun good => fails ⟨few, good.2⟩) room
      refine ⟨cause, after, ?_⟩
      rw [array, bind_apply_ok (ofExcept_eq_ok.2 ⟨counted, rfl⟩)]
      exact failed
  · have counted : countWord items.length = .error (.encode (.count items.length)) := if_neg few
    constructor
    · rintro ⟨also, -⟩
      exact absurd also few
    · intro _ draft _
      rw [array, counted]
      exact ⟨_, draft, bind_apply_error (throw_apply _ _)⟩

theorem settles_lengthPrefixed (body : Settles write bytes fits) :
    Settles (lengthPrefixed write) (boxed bytes) (fits ∧ bytes.length ≤ Misfit.lengthMax) := by
  constructor
  · rintro ⟨good, short⟩
    exact emits_lengthPrefixed (body.emits good) short
  · intro fails draft room
    rw [length_boxed] at room
    obtain ⟨placed, left⟩ := placed_of_room room
    by_cases good : fits
    · have long : Misfit.lengthMax < bytes.length :=
        Nat.not_le.1 fun short => fails ⟨good, short⟩
      exact ⟨_, _, lengthPrefixed_of_long placed (body.emits good left) long⟩
    · obtain ⟨cause, after, failed⟩ := body.refuses good left
      exact ⟨cause, after, lengthPrefixed_of_error placed failed⟩

end Writes

/-! ## Fields -/

theorem NamedText.settles (item : NamedText) :
    Writes.Settles item.write item.bytes item.Fits := by
  apply (Writes.settles_text item.name).bind
  exact Writes.settles_text item.value

theorem Extension.settles (item : Extension) :
    Writes.Settles item.write item.bytes item.Fits := by
  apply (Writes.settles_text item.name).bind
  exact Writes.settles_array NamedText.settles item.annotations

theorem Attribute.settles (item : Attribute) :
    Writes.Settles item.write item.bytes item.Fits := by
  have both := (Writes.emits_put (BigEndian.ofNat 2 item.code.toNat)).settles.bind
    (Writes.settles_byteArray item.value)
  rwa [true_and] at both

mutual

/-- Every field is written as its bytes if its lengths and numbers fit, and refused otherwise. -/
theorem Field.settles : (field : Field) → Writes.Settles field.write field.bytes field.Fits
  | .byte _ | .bool _ | .int16 _ | .word16 _ | .int32 _ | .word32 _ | .int64 _ | .word64 _
  | .float32 _ | .float64 _ | .uuid _ | .raw _ => (Writes.emits_put _).settles
  | .byteArray bytes => Writes.settles_byteArray bytes
  | .text content => Writes.settles_text content
  | .named items => Writes.settles_array NamedText.settles items
  | .attributes items => Writes.settles_array Attribute.settles items
  | .extension item => item.settles
  | .extensions items => Writes.settles_array Extension.settles items
  | .lengthPrefixed fields => Writes.settles_lengthPrefixed (Field.settlesAll fields)

theorem Field.settlesAll : (fields : List Field) →
    Writes.Settles (Field.writeAll fields) (Field.bytesAll fields) (Field.FitsAll fields)
  | [] => Writes.emits_pure.settles
  | field :: fields => (Field.settles field).bind (Field.settlesAll fields)

end

end SchemaWire
