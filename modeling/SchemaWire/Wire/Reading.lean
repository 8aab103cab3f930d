import SchemaWire.Uuid
import SchemaWire.Wire.Cursor

/-!
# Reading typed items

Numbers, identifiers, texts and byte strings as payloads hold them: numbers big-endian, texts and
byte strings after their length in four bytes.
-/

namespace SchemaWire
namespace Reads

/-- A byte. -/
def byte : Reads UInt8 := do
  let bytes ← take .byte 1
  pure (UInt8.ofNat (BigEndian.toNat bytes))

/-- A byte with sign. -/
def int8 : Reads Int8 := do
  let byte ← byte
  pure byte.toInt8

/-- A truth value: every byte but zero is true. -/
def bool : Reads Bool := do
  let byte ← byte
  pure (byte ≠ 0)

/-- The number of the next `width` bytes. -/
def number (access : Access) (width : Nat) : Reads Nat := do
  let bytes ← take access width
  pure (BigEndian.toNat bytes)

/-- Two bytes with sign. -/
def int16 : Reads Int16 := do
  let number ← number .int16 2
  pure (UInt16.ofNat number).toInt16

/-- Two bytes without sign. -/
def word16 : Reads UInt16 := do
  let number ← number .word16 2
  pure (UInt16.ofNat number)

/-- Four bytes with sign. -/
def int32 : Reads Int32 := do
  let number ← number .int32 4
  pure (UInt32.ofNat number).toInt32

/-- Four bytes without sign. -/
def word32 : Reads UInt32 := do
  let number ← number .word32 4
  pure (UInt32.ofNat number)

/-- Eight bytes with sign. -/
def int64 : Reads Int64 := do
  let number ← number .int64 8
  pure (UInt64.ofNat number).toInt64

/-- Eight bytes without sign. -/
def word64 : Reads UInt64 := do
  let number ← number .word64 8
  pure (UInt64.ofNat number)

/-- The bits of a single-precision number. -/
def float32 : Reads UInt32 := do
  let number ← number .float32 4
  pure (UInt32.ofNat number)

/-- The bits of a double-precision number. -/
def float64 : Reads UInt64 := do
  let number ← number .float64 8
  pure (UInt64.ofNat number)

/-- An identifier. -/
def uuid : Reads Uuid := do
  let high ← word64
  let low ← word64
  pure ⟨high, low⟩

/-- The text of bytes that stand in some place. -/
def textOf (place : TextPlace) (bytes : List UInt8) : Except Fault String :=
  match Utf8.decode bytes with
  | .ok text => .ok text
  | .error flaw => .error (.decode (.text place flaw))

/-- A text after its length; a length of zero or less is that of the empty text. -/
def text : Reads String := do
  let length ← int32
  if length ≤ 0 then
    pure ""
  else
    let bytes ← take .text length.toInt.toNat
    ofExcept (textOf .field bytes)

/-- Bytes of a known length. -/
def bytes (length : Nat) : Reads (List UInt8) :=
  take .bytes length

/-- A byte string after its length; a length of zero or less is that of an absent one. -/
def byteArray : Reads (Option (List UInt8)) := do
  let length ← int32
  if length ≤ 0 then
    pure none
  else
    let bytes ← bytes length.toInt.toNat
    pure (some bytes)

/-- A byte string after its length; an absent one is empty. -/
def byteArrayOrEmpty : Reads (List UInt8) := do
  let bytes ← byteArray
  pure (bytes.getD [])

/-- An element after its length; a length of zero is that of an empty element, and only a length
below zero that of an absent one. -/
def element : Reads (Option (List UInt8)) := do
  let length ← int32
  if length < 0 then
    pure none
  else
    let bytes ← bytes length.toInt.toNat
    pure (some bytes)

/-- A cursor over the next `length` bytes alone. -/
def sub (length : Nat) : Reads Cursor := do
  let bytes ← bytes length
  pure (Cursor.ofBytes bytes)

/-- An integer of a width. -/
def integer : Width → Reads Int
  | .byte => do
      let value ← byte
      pure value.toNat
  | .int16 => do
      let value ← int16
      pure value.toInt
  | .word16 => do
      let value ← word16
      pure value.toNat
  | .int32 => do
      let value ← int32
      pure value.toInt
  | .word32 => do
      let value ← word32
      pure value.toNat
  | .int64 => do
      let value ← int64
      pure value.toInt
  | .word64 => do
      let value ← word64
      pure value.toNat

/-- A number of elements. -/
def count (width : Width) : Reads Nat := do
  let value ← integer width
  match Misfit.of? 0 Misfit.countMax value with
  | none => pure value.toNat
  | some misfit => throw (.framing (.count width value misfit))

/-- Items after their number. -/
def array {α : Type} (width : Width) (read : Reads α) : Reads (List α) := do
  let count ← count width
  repeated read count

end Reads
end SchemaWire
