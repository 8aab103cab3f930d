import SchemaWire.Proofs.Wire.Exact
import SchemaWire.Proofs.Wire.Reading
import SchemaWire.Wire.Shape

/-!
# Fields are read back

Who knows the kinds of the fields of a payload reads back what was written, whatever the lengths of
its texts and lists: the bytes of a field are taken off the front, and the field is seen, but for an
empty byte string in the place of an optional one, which is taken for none.
-/

namespace SchemaWire

/-- An optional byte string as it is read back. -/
def filled? (bytes : Option (List UInt8)) : Option (List UInt8) :=
  bytes.filter (!·.isEmpty)

theorem getD_filled? (bytes : Option (List UInt8)) : (filled? bytes).getD [] = bytes.getD [] := by
  rcases bytes with - | - | ⟨byte, bytes⟩ <;> rfl

/-- An attribute as it is read back. -/
def Attribute.seen (item : Attribute) : Attribute :=
  { item with value := filled? item.value }

/-- A field as it is read back. -/
def Field.seen : Field → Field
  | .byteArray bytes => .byteArray (filled? bytes)
  | .attributes items => .attributes (items.map Attribute.seen)
  | field => field

namespace Reads

variable {α β : Type}

theorem takes_text {content : String} (fits : (Utf8.encode content).length ≤ Misfit.lengthMax) :
    Takes text (boxed (Utf8.encode content)) content := by
  by_cases blank : Utf8.encode content = []
  · have decoded := Utf8.decode_encode content
    rw [blank] at decoded ⊢
    obtain rfl : "" = content := Except.ok.inj decoded
    obtain ⟨word, nothing, taken⟩ := takes_length_of_empty
    refine taken.then ?_
    rw [if_pos nothing]
    exact takes_pure ""
  · obtain ⟨word, positive, counted, taken⟩ := takes_length_of_filled blank fits
    refine taken.bind ?_
    rw [if_neg positive, counted]
    exact (takes_take .text _).then (takes_ofExcept (textOf_encode .field content))

theorem takes_boxed? {bytes : Option (List UInt8)}
    (fits : (bytes.getD []).length ≤ Misfit.lengthMax) :
    Takes byteArray (boxed? bytes) (filled? bytes) := by
  rcases bytes with - | - | ⟨byte, bytes⟩
  · exact (takes_int32 (-1)).then (takes_pure none)
  · obtain ⟨word, nothing, taken⟩ := takes_length_of_empty
    refine taken.then ?_
    rw [if_pos nothing]
    exact takes_pure none
  · exact takes_byteArray (List.cons_ne_nil byte bytes) fits

/-- A byte string that is empty is read back as one where none counts as empty. -/
theorem takes_boxed {bytes : List UInt8} (fits : bytes.length ≤ Misfit.lengthMax) :
    Takes byteArrayOrEmpty (boxed bytes) bytes := by
  have seen : (filled? (some bytes)).getD [] = bytes := getD_filled? (some bytes)
  have taken := (@takes_boxed? (some bytes) fits).map fun found => found.getD []
  rwa [seen] at taken

theorem takes_count {width : Width} {bytes : List UInt8} {number : Nat}
    (small : number ≤ Misfit.countMax) (taken : Takes (integer width) bytes number) :
    Takes (count width) bytes number := by
  have within : Misfit.of? 0 Misfit.countMax (number : Int) = none := by
    rw [Misfit.of?_eq_none_iff]
    omega
  refine taken.then ?_
  rw [within]
  exact takes_pure number

theorem takes_count16 {number : Nat} (fits : number ≤ 65535) :
    Takes (count .word16) (BigEndian.ofNat 2 number) number := by
  have taken := (takes_word16 (UInt16.ofNat number)).map fun value => (value.toNat : Int)
  rw [Writes.toNat_countWord fits] at taken
  exact takes_count (Nat.le_trans fits (by decide)) taken

/-- Items after their number are read back as each of them is. -/
theorem takes_array {width : Width} {front : List UInt8} {read : Reads β} {bytes : α → List UInt8}
    {view : α → β} {items : List α} (counted : Takes (count width) front items.length)
    (one : ∀ item ∈ items, Takes read (bytes item) (view item)) :
    Takes (array width read) (front ++ items.flatMap bytes) (items.map view) := by
  have each : List.Forall₂ (fun chunk item => ∀ _ : Nat, Takes read chunk item)
      (items.map bytes) (items.map view) := by
    rw [List.forall₂_map_left_iff, List.forall₂_map_right_iff, List.forall₂_same]
    intro item member _
    exact one item member
  have repeated := @takes_numbered β (fun _ => read) _ _ each
  rw [List.length_map, ← List.flatMap_def] at repeated
  exact counted.bind repeated

theorem takes_array16 {read : Reads β} {bytes : α → List UInt8} {view : α → β} {items : List α}
    (few : items.length ≤ 65535) (one : ∀ item ∈ items, Takes read (bytes item) (view item)) :
    Takes (array .word16 read) (listed bytes items) (items.map view) :=
  takes_array (takes_count16 few) one

theorem takes_array16_self {read : Reads α} {bytes : α → List UInt8} {items : List α}
    (few : items.length ≤ 65535) (one : ∀ item ∈ items, Takes read (bytes item) item) :
    Takes (array .word16 read) (listed bytes items) items := by
  have taken := @takes_array16 α α read bytes id items few one
  rwa [List.map_id] at taken

end Reads

open Reads

theorem NamedText.takes_read {item : NamedText} (fits : item.Fits) :
    Takes NamedText.read item.bytes item := by
  refine (takes_text fits.1).bind ?_
  exact (takes_text fits.2).then (takes_pure item)

theorem Attribute.takes_read {item : Attribute} (fits : item.Fits) :
    Takes Attribute.read item.bytes item.seen := by
  refine (takes_word16 item.code).bind ?_
  exact (takes_boxed? fits).then (takes_pure item.seen)

theorem Attribute.takes_list {items : List Attribute}
    (fits : items.length ≤ 65535 ∧ ∀ item ∈ items, item.Fits) :
    Takes (array .word16 Attribute.read) (listed Attribute.bytes items)
      (items.map Attribute.seen) := by
  refine takes_array16 fits.1 ?_
  intro item member
  exact Attribute.takes_read (fits.2 item member)

theorem NamedText.takes_list {items : List NamedText}
    (fits : items.length ≤ 65535 ∧ ∀ item ∈ items, item.Fits) :
    Takes (array .word16 NamedText.read) (listed NamedText.bytes items) items := by
  refine takes_array16_self fits.1 ?_
  intro item member
  exact NamedText.takes_read (fits.2 item member)

theorem Extension.takes_read {item : Extension} (fits : item.Fits) :
    Takes Extension.read item.bytes item := by
  refine (takes_text fits.1).bind ?_
  exact (NamedText.takes_list fits.2).then (takes_pure item)

theorem Extension.takes_list {items : List Extension}
    (fits : items.length ≤ 65535 ∧ ∀ item ∈ items, item.Fits) :
    Takes (array .word16 Extension.read) (listed Extension.bytes items) items := by
  refine takes_array16_self fits.1 ?_
  intro item member
  exact Extension.takes_read (fits.2 item member)

/-- A field whose lengths and numbers fit is read back by its kind. -/
theorem Field.takes_read : {field : Field} → {shape : Shape} → field.shape? = some shape →
    field.Fits → Takes shape.read field.bytes field.seen
  | .byte value, _, rfl, _ => (takes_byte value).map Field.byte
  | .bool value, _, rfl, _ => (takes_bool value).map Field.bool
  | .int16 value, _, rfl, _ => (takes_int16 value).map Field.int16
  | .word16 value, _, rfl, _ => (takes_word16 value).map Field.word16
  | .int32 value, _, rfl, _ => (takes_int32 value).map Field.int32
  | .word32 value, _, rfl, _ => (takes_word32 value).map Field.word32
  | .int64 value, _, rfl, _ => (takes_int64 value).map Field.int64
  | .word64 value, _, rfl, _ => (takes_word64 value).map Field.word64
  | .float32 bits, _, rfl, _ => (takes_float32 bits).map Field.float32
  | .float64 bits, _, rfl, _ => (takes_float64 bits).map Field.float64
  | .uuid id, _, rfl, _ => (takes_uuid id).map Field.uuid
  | .byteArray _, _, rfl, fits => (takes_boxed? fits).map Field.byteArray
  | .text _, _, rfl, fits => (takes_text fits).map Field.text
  | .named _, _, rfl, fits => (NamedText.takes_list fits).map Field.named
  | .attributes _, _, rfl, fits => (Attribute.takes_list fits).map Field.attributes
  | .extension _, _, rfl, fits => (Extension.takes_read fits).map Field.extension
  | .extensions _, _, rfl, fits => (Extension.takes_list fits).map Field.extensions

/-- Fields one after the other are read back by their kinds. -/
theorem Field.takes_readAll {fields : List Field} {shapes : List Shape}
    (shaped : List.Forall₂ (fun field shape => field.shape? = some shape) fields shapes)
    (fits : Field.FitsAll fields) :
    Takes (Shape.readAll shapes) (Field.bytesAll fields) (fields.map Field.seen) := by
  induction shaped with
  | nil => exact takes_pure []
  | cons head _ ih =>
      refine (Field.takes_read head fits.1).bind ?_
      exact (ih fits.2).then (takes_pure _)

end SchemaWire
