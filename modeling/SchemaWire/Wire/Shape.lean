import SchemaWire.Wire.Field

/-!
# Shapes

What a reader knows of a payload beforehand: the kinds of its fields, one after the other.
-/

namespace SchemaWire

/-- A read whose value is seen as another. -/
def Reads.map {α β : Type} (view : α → β) (read : Reads α) : Reads β := do
  let value ← read
  pure (view value)

/-- The kind of a field that can be read. -/
inductive Shape where
  /-- A byte. -/
  | byte
  /-- A truth value. -/
  | bool
  /-- Two bytes with sign. -/
  | int16
  /-- Two bytes without sign. -/
  | word16
  /-- Four bytes with sign. -/
  | int32
  /-- Four bytes without sign. -/
  | word32
  /-- Eight bytes with sign. -/
  | int64
  /-- Eight bytes without sign. -/
  | word64
  /-- A single-precision number. -/
  | float32
  /-- A double-precision number. -/
  | float64
  /-- An identifier. -/
  | uuid
  /-- A byte string after its length. -/
  | byteArray
  /-- A text after its length. -/
  | text
  /-- Named texts after their number. -/
  | named
  /-- Attributes after their number. -/
  | attributes
  /-- An extension. -/
  | extension
  /-- Extensions after their number. -/
  | extensions
  deriving DecidableEq, Repr

namespace Shape

/-- Read a field of a kind. -/
def read : Shape → Reads Field
  | .byte => Reads.byte.map .byte
  | .bool => Reads.bool.map .bool
  | .int16 => Reads.int16.map .int16
  | .word16 => Reads.word16.map .word16
  | .int32 => Reads.int32.map .int32
  | .word32 => Reads.word32.map .word32
  | .int64 => Reads.int64.map .int64
  | .word64 => Reads.word64.map .word64
  | .float32 => Reads.float32.map .float32
  | .float64 => Reads.float64.map .float64
  | .uuid => Reads.uuid.map .uuid
  | .byteArray => Reads.byteArray.map .byteArray
  | .text => Reads.text.map .text
  | .named => (Reads.array .word16 NamedText.read).map .named
  | .attributes => (Reads.array .word16 Attribute.read).map .attributes
  | .extension => Extension.read.map .extension
  | .extensions => (Reads.array .word16 Extension.read).map .extensions

/-- Read fields of known kinds one after the other. -/
def readAll : List Shape → Reads (List Field)
  | [] => pure []
  | shape :: shapes => do
      let field ← shape.read
      let fields ← readAll shapes
      pure (field :: fields)

end Shape

/-- The kind of a field, unless it cannot be read without knowing more than its kind. -/
def Field.shape? : Field → Option Shape
  | .byte _ => some .byte
  | .bool _ => some .bool
  | .int16 _ => some .int16
  | .word16 _ => some .word16
  | .int32 _ => some .int32
  | .word32 _ => some .word32
  | .int64 _ => some .int64
  | .word64 _ => some .word64
  | .float32 _ => some .float32
  | .float64 _ => some .float64
  | .uuid _ => some .uuid
  | .byteArray _ => some .byteArray
  | .text _ => some .text
  | .named _ => some .named
  | .attributes _ => some .attributes
  | .extension _ => some .extension
  | .extensions _ => some .extensions
  | .raw _ | .lengthPrefixed _ => none

end SchemaWire
