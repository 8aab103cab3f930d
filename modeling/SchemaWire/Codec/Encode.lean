import SchemaWire.Codec.Timestamp
import SchemaWire.Wire.Draft

/-!
# Encoding

Writing the values of a type.  Sets are never written, and what is absent writes nothing.
-/

namespace SchemaWire

/-- The microseconds of a duration as the wire holds them. -/
def durationWord (type : Uuid) (nanoseconds : Int) : Except Fault Int64 :=
  let microseconds := Span.microseconds nanoseconds
  match Misfit.of? Int64.minValue.toInt Int64.maxValue.toInt microseconds with
  | none => .ok (Int64.ofInt microseconds)
  | some misfit => .error (.encode (.duration type misfit))

/-- Write a scalar. -/
def ScalarKind.write (kind : ScalarKind) (type : Uuid) (value : Value) : Writes Unit :=
  match kind, value with
  | .uuid, .uuid id => Writes.uuid id
  | .text, .text content => Writes.put (Utf8.encode content)
  | .bytes, .bytes content => Writes.put content
  | .int16, .int16 number => Writes.int16 number
  | .int32, .int32 number => Writes.int32 number
  | .int64, .int64 number => Writes.int64 number
  | .float32, .float32 bits => Writes.word32 bits
  | .float64, .float64 bits => Writes.word64 bits
  | .bool, .bool truth => Writes.bool truth
  | .json, .json content => do
      Writes.byte jsonFormat
      Writes.put (Utf8.encode content)
  | .duration, .duration nanoseconds => do
      let microseconds ← Writes.ofExcept (durationWord type nanoseconds)
      Writes.int64 microseconds
      Writes.int32 0
      Writes.int32 0
  | _, other => throw (.encode (.mismatch .scalar type other.kind))

namespace Codec

/-- Write the name of a member of an enumeration. -/
def writeMember (type : Uuid) (members : List String) (name : String) : Writes Unit := do
  Writes.ofExcept (checkMember type members name)
  Writes.put (Utf8.encode name)

/-- Write the header of an array and then its elements; an empty array has no dimensions. -/
def writeArray (write : Value → Writes Unit) (elements : List Value) : Writes Unit :=
  if elements.isEmpty then do
    Writes.int32 0
    Writes.int32 0
    Writes.int32 0
  else do
    Writes.int32 1
    Writes.int32 0
    Writes.int32 0
    let length ← Writes.ofExcept (Writes.lengthWord elements.length)
    Writes.word32 length
    Writes.int32 1
    Writes.each (fun element => Writes.lengthPrefixed (write element)) elements

/-- Write a slot of a tuple. -/
def writeSlot (write : Value → Writes Unit) (slot : Option Value) : Writes Unit := do
  Writes.int32 0
  match slot with
  | some value => Writes.lengthPrefixed (write value)
  | none => Writes.byteArray none

mutual

/-- Write a value. -/
def write : Codec → Value → Writes Unit
  | .scalar type kind, value => kind.write type value
  | .timestamp _ inner kind, value => do
      let value ← Writes.ofExcept (kind.toInner value)
      write inner value
  | .enumeration type members, value =>
      match value with
      | .member name | .text name => writeMember type members name
      | other => throw (.encode (.mismatch .enumeration type other.kind))
  | .set type _, _ => throw (.unsupportedShape type .setWriting)
  | .array type element, value =>
      match value with
      | .array elements => writeArray (write element) elements
      | other => throw (.encode (.mismatch .array type other.kind))
  | .tuple type elements, value =>
      match value with
      | .tuple slots =>
          if slots.length = elements.length then do
            let length ← Writes.ofExcept (Writes.lengthWord slots.length)
            Writes.word32 length
            writeSlots elements slots
          else
            throw (.cardinality type (.tupleGiven elements.length slots.length))
      | other => throw (.encode (.mismatch .tuple type other.kind))

/-- Write the slots of a tuple, each by its codec. -/
def writeSlots : List Codec → List (Option Value) → Writes Unit
  | codec :: codecs, slot :: slots => do
      writeSlot (write codec) slot
      writeSlots codecs slots
  | _, _ => pure ()

end

/-- Write a value, or nothing if it is absent. -/
def writeOptional (codec : Codec) (value : Option Value) : Writes Unit :=
  match value, codec with
  | some value, codec => codec.write value
  | none, .set type _ => throw (.unsupportedShape type .setWriting)
  | none, _ => pure ()

/-- The bytes that stand for a value. -/
def encode (codec : Codec) (value : Option Value) : Except Fault (List UInt8) :=
  (codec.writeOptional value).run

end Codec
end SchemaWire
