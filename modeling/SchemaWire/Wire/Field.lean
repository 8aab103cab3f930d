import SchemaWire.Wire.Annotated

/-!
# Fields

The items that payloads are made of, as data: a payload is a list of fields, and writing a field
takes as many bytes as its size says.
-/

namespace SchemaWire

/-- An item of a payload. -/
inductive Field where
  /-- A byte. -/
  | byte (value : UInt8)
  /-- A truth value. -/
  | bool (value : Bool)
  /-- Two bytes with sign. -/
  | int16 (value : Int16)
  /-- Two bytes without sign. -/
  | word16 (value : UInt16)
  /-- Four bytes with sign. -/
  | int32 (value : Int32)
  /-- Four bytes without sign. -/
  | word32 (value : UInt32)
  /-- Eight bytes with sign. -/
  | int64 (value : Int64)
  /-- Eight bytes without sign. -/
  | word64 (value : UInt64)
  /-- A single-precision number, by its bits. -/
  | float32 (bits : UInt32)
  /-- A double-precision number, by its bits. -/
  | float64 (bits : UInt64)
  /-- An identifier. -/
  | uuid (id : Uuid)
  /-- Bytes without their length. -/
  | raw (bytes : List UInt8)
  /-- A byte string after its length. -/
  | byteArray (bytes : Option (List UInt8))
  /-- A text after its length. -/
  | text (content : String)
  /-- Named texts after their number. -/
  | named (items : List NamedText)
  /-- Attributes after their number. -/
  | attributes (items : List Attribute)
  /-- An extension. -/
  | extension (item : Extension)
  /-- Extensions after their number. -/
  | extensions (items : List Extension)
  /-- Fields after their length. -/
  | lengthPrefixed (fields : List Field)
  deriving Repr, Inhabited

namespace Field

mutual

/-- Write a field. -/
def write : Field → Writes Unit
  | .byte value => Writes.byte value
  | .bool value => Writes.bool value
  | .int16 value => Writes.int16 value
  | .word16 value => Writes.word16 value
  | .int32 value => Writes.int32 value
  | .word32 value => Writes.word32 value
  | .int64 value => Writes.int64 value
  | .word64 value => Writes.word64 value
  | .float32 bits => Writes.word32 bits
  | .float64 bits => Writes.word64 bits
  | .uuid id => Writes.uuid id
  | .raw bytes => Writes.put bytes
  | .byteArray bytes => Writes.byteArray bytes
  | .text content => Writes.text content
  | .named items => Writes.array NamedText.write items
  | .attributes items => Writes.array Attribute.write items
  | .extension item => item.write
  | .extensions items => Writes.array Extension.write items
  | .lengthPrefixed fields => Writes.lengthPrefixed (writeAll fields)

/-- Write fields one after the other, up to the first that fails. -/
def writeAll : List Field → Writes Unit
  | [] => pure ()
  | field :: fields => do
      write field
      writeAll fields

end

mutual

/-- The size of a written field. -/
def size : Field → Nat
  | .byte _ | .bool _ => 1
  | .int16 _ | .word16 _ => 2
  | .int32 _ | .word32 _ | .float32 _ => 4
  | .int64 _ | .word64 _ | .float64 _ => 8
  | .uuid _ => 16
  | .raw bytes => bytes.length
  | .byteArray bytes => byteArraySize bytes
  | .text content => textSize content
  | .named items => arraySize NamedText.size items
  | .attributes items => arraySize Attribute.size items
  | .extension item => item.size
  | .extensions items => arraySize Extension.size items
  | .lengthPrefixed fields => 4 + sizeAll fields

/-- The size of fields written one after the other. -/
def sizeAll : List Field → Nat
  | [] => 0
  | field :: fields => size field + sizeAll fields

end

end Field
end SchemaWire
