import SchemaWire.Wire.Draft
import SchemaWire.Wire.Reading

/-!
# Named texts, attributes and extensions

The small records that messages list: annotations and connection parameters are texts under names,
attributes are byte strings under numbers, and an extension is a name with annotations of its own.
-/

namespace SchemaWire

/-- A text under a name. -/
structure NamedText where
  /-- The name. -/
  name : String
  /-- The text. -/
  value : String
  deriving DecidableEq, Repr

namespace NamedText

/-- Read a named text. -/
def read : Reads NamedText := do
  let name ← Reads.text
  let value ← Reads.text
  pure ⟨name, value⟩

/-- Write a named text. -/
def write (item : NamedText) : Writes Unit := do
  Writes.text item.name
  Writes.text item.value

/-- The size of a written named text. -/
def size (item : NamedText) : Nat :=
  textSize item.name + textSize item.value

end NamedText

/-- A byte string, or none, under a number. -/
structure Attribute where
  /-- The number. -/
  code : UInt16
  /-- The byte string. -/
  value : Option (List UInt8)
  deriving DecidableEq, Repr

namespace Attribute

/-- Read an attribute. -/
def read : Reads Attribute := do
  let code ← Reads.word16
  let value ← Reads.byteArray
  pure ⟨code, value⟩

/-- Write an attribute. -/
def write (item : Attribute) : Writes Unit := do
  Writes.word16 item.code
  Writes.byteArray item.value

/-- The size of a written attribute. -/
def size (item : Attribute) : Nat :=
  2 + byteArraySize item.value

end Attribute

/-- An extension of the protocol. -/
structure Extension where
  /-- The name. -/
  name : String
  /-- What is said about it. -/
  annotations : List NamedText
  deriving DecidableEq, Repr

namespace Extension

/-- Read an extension. -/
def read : Reads Extension := do
  let name ← Reads.text
  let annotations ← Reads.array .word16 NamedText.read
  pure ⟨name, annotations⟩

/-- Write an extension. -/
def write (item : Extension) : Writes Unit := do
  Writes.text item.name
  Writes.array NamedText.write item.annotations

/-- The size of a written extension. -/
def size (item : Extension) : Nat :=
  textSize item.name + arraySize NamedText.size item.annotations

end Extension
end SchemaWire
