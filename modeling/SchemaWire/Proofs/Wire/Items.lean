import SchemaWire.Proofs.Wire.Shape
import SchemaWire.Proofs.Wire.Taking
import SchemaWire.Wire.Operation

/-!
# Writing, reading and sizes agree

Each kind of item is described three times: by how it is written, by how it is read, and by the size
that it is said to have.  What was written without a bound is read back by the operations for it;
and the size is the number of bytes that were written, or that were read, wherever the bytes come
from.
-/

namespace SchemaWire

/-! ## Written sizes -/

namespace Writes

variable {write : Writes Unit} {bytes : List UInt8} {fits : Prop} {draft after : Draft}

/-- A draft without a bound. -/
structure Unbounded (draft : Draft) : Prop where
  begun : draft.start ≤ draft.buffer.size
  free : draft.limit = none

theorem Unbounded.room (unbounded : Unbounded draft) (length : Nat) : draft.Room length := by
  constructor
  · exact unbounded.begun
  · rw [Draft.broken?, unbounded.free]

/-- A settled write that succeeds without a bound has added its bytes. -/
theorem Settles.of_eq_ok (settled : Settles write bytes fits) (unbounded : Unbounded draft)
    (done : write draft = .ok () after) : fits ∧ after = draft.add bytes := by
  by_cases good : fits
  · rw [settled.emits good (unbounded.room _)] at done
    exact ⟨good, (EStateM.Result.ok.inj done).2.symm⟩
  · obtain ⟨cause, refused, failed⟩ := settled.refuses good (unbounded.room _)
    simp [failed] at done

/-- A write adds as many bytes as a size says. -/
def Sized (write : Writes Unit) (size : Nat) : Prop :=
  ∀ ⦃draft after⦄, Unbounded draft → write draft = .ok () after →
    after.written = draft.written + size

theorem Settles.sized (settled : Settles write bytes fits) : Sized write bytes.length := by
  intro draft after unbounded done
  obtain ⟨-, rfl⟩ := settled.of_eq_ok unbounded done
  exact Draft.written_add unbounded.begun bytes

end Writes

/-! ## Read sizes -/

namespace Reads

variable {α : Type} {read : Reads α} {size : α → Nat}

/-- A read takes as many bytes as the size of its value says. -/
def Sized (read : Reads α) (size : α → Nat) : Prop :=
  Gives read fun bytes value => bytes.length = size value

theorem Sized.position (sized : Sized read size) {start stop : Cursor} {value : α}
    (done : read start = .ok value stop) : stop.position = start.position + size value := by
  obtain ⟨bytes, -, behind, length⟩ := sized done
  calc
    stop.position = bytes.reverse.length + start.behind.length := by
      rw [Cursor.position, behind, List.length_append]
    _ = start.behind.length + size value := by
      rw [List.length_reverse, length, Nat.add_comm]

theorem sized_text : Sized text textSize := by
  refine gives_int32.bind fun front length first => ?_
  split
  case isTrue => exact gives_pure (by simp [first, textSize, Utf8.encode_empty])
  case isFalse =>
    refine (gives_take .text _).bind fun bytes content taken => ?_
    obtain ⟨rfl, -⟩ := taken
    refine gives_ofExcept fun text held => ?_
    rw [List.append_nil, List.length_append, first, textSize, encode_of_textOf held]

theorem gives_word16 : Gives word16 fun bytes _ => bytes.length = 2 :=
  Gives.map (gives_number .word16 2)

theorem gives_count16 : Gives (count .word16) fun bytes _ => bytes.length = 2 := by
  have number : Gives (integer .word16) fun bytes _ => bytes.length = 2 := Gives.map gives_word16
  refine number.bind fun front value first => ?_
  split
  case h_1 => exact gives_pure (by rw [List.append_nil, first])
  case h_2 => exact gives_throw _

theorem length_flatten_of_sized {chunks : List (List UInt8)} {items : List α}
    (each : List.Forall₂ (fun chunk item => chunk.length = size item) chunks items) :
    2 + chunks.flatten.length = arraySize size items := by
  induction each with
  | nil => rfl
  | cons head _ ih =>
      rw [arraySize_cons, List.flatten_cons, List.length_append, head, ← ih]
      omega

theorem sized_array (one : Sized read size) : Sized (array .word16 read) (arraySize size) := by
  refine gives_count16.bind fun front count first => ?_
  refine (gives_numbered (fun _ => one) count).mono ?_
  rintro back items ⟨chunks, rfl, -, each⟩
  rw [List.length_append, first, length_flatten_of_sized each]

end Reads

open Reads

theorem NamedText.sized_read : Sized NamedText.read NamedText.size := by
  refine sized_text.bind fun front name first => ?_
  apply Gives.map
  refine sized_text.mono fun back value second => ?_
  rw [List.length_append, first, second, size]

theorem Attribute.sized_read : Sized Attribute.read Attribute.size := by
  refine gives_word16.bind fun front code first => ?_
  apply Gives.map
  refine gives_byteArray.mono fun back value second => ?_
  rw [List.length_append, first, second, size]

theorem Extension.sized_read : Sized Extension.read Extension.size := by
  refine sized_text.bind fun front name first => ?_
  apply Gives.map
  refine (sized_array NamedText.sized_read).mono fun back annotations second => ?_
  rw [List.length_append, first, second, size]

/-! ## Operations -/

theorem Attribute.takes_readElement {item : Attribute} (fits : item.Fits) :
    Takes Attribute.readElement item.bytes item := by
  obtain ⟨code, value⟩ := item
  refine (takes_word16 code).bind ?_
  cases value with
  | none => exact takes_element_absent.then (takes_pure _)
  | some bytes => exact (takes_element fits).then (takes_pure _)

namespace Operation

/-- A field as an operation reads it back. -/
def sees : Operation → Field → Field
  | .plain _, field => field.seen
  | .element, field | .elementAttributes, field => field

theorem takes_read {operation : Operation} {field : Field} (suits : operation.Suits field)
    (fits : field.Fits) : Takes operation.read field.bytes (operation.sees field) := by
  cases operation with
  | plain shape => exact Field.takes_read suits fits
  | element =>
      cases field with
      | byteArray bytes =>
          cases bytes with
          | none => exact takes_element_absent.map Field.byteArray
          | some bytes => exact (takes_element fits).map Field.byteArray
      | _ => exact suits.elim
  | elementAttributes =>
      cases field with
      | attributes items =>
          have listed := takes_array16_self fits.1 fun item member =>
            Attribute.takes_readElement (fits.2 item member)
          exact listed.map Field.attributes
      | _ => exact suits.elim

theorem takes_readAll {operations : List Operation} {fields : List Field}
    (suited : List.Forall₂ Suits operations fields) (fits : Field.FitsAll fields) :
    Takes (readAll operations) (Field.bytesAll fields)
      (List.zipWith sees operations fields) := by
  induction suited with
  | nil => exact takes_pure []
  | cons head _ ih => exact (takes_read head fits.1).bind ((ih fits.2).then (takes_pure _))

/-- What is written without a bound is as long as its size and is read back, with nothing left. -/
theorem readAll_of_writeAll {buffer : Array UInt8} {draft : Draft} {operations : List Operation}
    {fields : List Field} (suited : List.Forall₂ Suits operations fields)
    (done : Field.writeAll fields (Draft.after buffer none) = .ok () draft) :
    ∃ bytes stop, draft.buffer.toList = buffer.toList ++ bytes ∧
      bytes.length = Field.sizeAll fields ∧
      readAll operations (Cursor.ofBytes bytes) =
        .ok (List.zipWith sees operations fields) stop ∧ stop.atEnd = true := by
  have unbounded : Writes.Unbounded (Draft.after buffer none) := ⟨Nat.le_refl _, rfl⟩
  obtain ⟨fits, rfl⟩ := (Field.settlesAll fields).of_eq_ok unbounded done
  have taken := (takes_readAll suited fits).takesAll []
  exact ⟨_, _, Draft.toList_buffer_add _ _, Field.length_bytesAll fields, taken, rfl⟩

/-- Items that are written without a bound have their sizes together, are read back by the
operations for them, and nothing is left.  Each item whose size varies adds as many bytes as its
size, and takes as many when it is read, wherever the bytes come from. -/
theorem items_round_trip :
    (∀ (buffer : Array UInt8) (draft : Draft) (operations : List Operation) (fields : List Field),
      List.Forall₂ Suits operations fields →
      Field.writeAll fields (Draft.after buffer none) = .ok () draft →
        ∃ bytes stop, draft.buffer.toList = buffer.toList ++ bytes ∧
          bytes.length = Field.sizeAll fields ∧
          readAll operations (Cursor.ofBytes bytes) =
            .ok (List.zipWith sees operations fields) stop ∧ stop.atEnd = true) ∧
    ((∀ bytes, Writes.Sized (Writes.byteArray bytes) (byteArraySize bytes)) ∧
      (∀ content, Writes.Sized (Writes.text content) (textSize content)) ∧
      (∀ items, Writes.Sized (Writes.array NamedText.write items)
        (arraySize NamedText.size items)) ∧
      (∀ items, Writes.Sized (Writes.array Attribute.write items)
        (arraySize Attribute.size items)) ∧
      ∀ item, Writes.Sized (Extension.write item) item.size) ∧
    ∀ start stop : Cursor,
      (∀ item, Extension.read start = .ok item stop →
        stop.position = start.position + item.size) ∧
      (∀ items, array .word16 NamedText.read start = .ok items stop →
        stop.position = start.position + arraySize NamedText.size items) ∧
      ∀ items, array .word16 Attribute.read start = .ok items stop →
        stop.position = start.position + arraySize Attribute.size items := by
  have sized (field : Field) : Writes.Sized field.write field.size := by
    rw [← field.length_bytes]
    exact field.settles.sized
  refine ⟨?whole, ⟨?byteArrays, ?texts, ?annotations, ?attributes, ?extensions⟩, ?taken⟩
  case whole =>
    intro buffer draft operations fields suited done
    exact readAll_of_writeAll suited done
  case byteArrays =>
    intro bytes
    exact sized (.byteArray bytes)
  case texts =>
    intro content
    exact sized (.text content)
  case annotations =>
    intro items
    exact sized (.named items)
  case attributes =>
    intro items
    exact sized (.attributes items)
  case extensions =>
    intro item
    exact sized (.extension item)
  case taken =>
    intro start stop
    refine ⟨?_, ?_, ?_⟩
    · intro item done
      exact Extension.sized_read.position done
    · intro items done
      exact (sized_array NamedText.sized_read).position done
    · intro items done
      exact (sized_array Attribute.sized_read).position done

/-- Byte strings and attributes that are empty, each read in both ways, and an extension. -/
def sampleItems : List Field :=
  [.byteArray (some []), .byteArray (some []), .attributes [⟨1, some []⟩],
    .attributes [⟨1, some []⟩], .extension ⟨"x", [⟨"k", "v"⟩]⟩]

/-- The operations for these. -/
def sampleOperations : List Operation :=
  [.plain .byteArray, .element, .plain .attributes, .elementAttributes, .plain .extension]

/-- The last bytes are an extension whose name has a length of minus one. -/
theorem items_round_trip_sample :
    (∃ bytes stop, bytes.length = 41 ∧
      readAll sampleOperations (Cursor.ofBytes bytes) =
        .ok [.byteArray none, .byteArray (some []), .attributes [⟨1, none⟩],
          .attributes [⟨1, some []⟩], .extension ⟨"x", [⟨"k", "v"⟩]⟩] stop ∧ stop.atEnd = true) ∧
    (∃ draft, Writes.text "ab" (Draft.after #[7] none) = .ok () draft ∧
      draft.written = 0 + textSize "ab") ∧
    ∃ stop, Extension.read (Cursor.ofBytes [255, 255, 255, 255, 0, 0, 9]) = .ok ⟨"", []⟩ stop ∧
      stop.position = 0 + Extension.size ⟨"", []⟩ := by
  have suited : List.Forall₂ Suits sampleOperations sampleItems := by
    simp [sampleOperations, sampleItems, Suits, Field.shape?]
  obtain ⟨bytes, stop, -, length, read, empty⟩ := items_round_trip.1 #[7] _ _ _ suited rfl
  have unbounded : Writes.Unbounded (Draft.after #[7] none) := ⟨Nat.le_refl 1, rfl⟩
  have named : Extension.read (Cursor.ofBytes [255, 255, 255, 255, 0, 0, 9]) = .ok ⟨"", []⟩ _ := rfl
  refine ⟨⟨bytes, stop, length, read, empty⟩, ⟨_, rfl, ?_⟩, ⟨_, named, ?_⟩⟩
  · exact items_round_trip.2.1.2.1 "ab" unbounded rfl
  · exact (items_round_trip.2.2 _ _).1 _ named

end Operation
end SchemaWire
