import SchemaWire.Fault
import SchemaWire.Uuid

/-!
# Drafts

A draft is a payload being written at the end of a buffer.  It may be bounded by the size that its
message declares; a write that would go beyond the bound fails and writes nothing.
-/

namespace SchemaWire

/-- A payload being written. -/
structure Draft where
  /-- What the buffer holds, the payload last. -/
  buffer : Array UInt8
  /-- Where the payload begins. -/
  start : Nat
  /-- How long the payload may grow, if there is a bound. -/
  limit : Option Nat
  deriving DecidableEq, Repr

namespace Draft

/-- An empty payload at the end of a buffer. -/
def after (buffer : Array UInt8) (limit : Option Nat) : Draft :=
  ⟨buffer, buffer.size, limit⟩

/-- The number of bytes written. -/
def written (draft : Draft) : Nat :=
  draft.buffer.size - draft.start

/-- The bound that a further `length` bytes would break. -/
def broken? (draft : Draft) (length : Nat) : Option Nat :=
  match draft.limit with
  | none => none
  | some limit => if limit < draft.written + length then some limit else none

/-- Put bytes in the place of those from `position` on. -/
def overwrite (buffer : Array UInt8) (position : Nat) : List UInt8 → Array UInt8
  | [] => buffer
  | byte :: bytes => overwrite (buffer.setIfInBounds position byte) (position + 1) bytes

end Draft

/-- A computation that writes a payload. -/
abbrev Writes (α : Type) := EStateM Fault Draft α

namespace Writes

/-- Fail if `length` more bytes would break the bound. -/
def reserve (length : Nat) : Writes Unit := fun draft =>
  match draft.broken? length with
  | none => .ok () draft
  | some limit => .error (.framing (.overflow length limit draft.written)) draft

/-- Add bytes to the payload. -/
def put (bytes : List UInt8) : Writes Unit := do
  reserve bytes.length
  modify fun draft => { draft with buffer := draft.buffer ++ bytes }

/-- A byte. -/
def byte (value : UInt8) : Writes Unit :=
  put [value]

/-- A truth value. -/
def bool (value : Bool) : Writes Unit :=
  byte (if value then 1 else 0)

/-- Two bytes without sign. -/
def word16 (value : UInt16) : Writes Unit :=
  put (BigEndian.ofNat 2 value.toNat)

/-- Two bytes with sign. -/
def int16 (value : Int16) : Writes Unit :=
  word16 value.toUInt16

/-- Four bytes without sign. -/
def word32 (value : UInt32) : Writes Unit :=
  put (BigEndian.ofNat 4 value.toNat)

/-- Four bytes with sign. -/
def int32 (value : Int32) : Writes Unit :=
  word32 value.toUInt32

/-- Eight bytes without sign. -/
def word64 (value : UInt64) : Writes Unit :=
  put (BigEndian.ofNat 8 value.toNat)

/-- Eight bytes with sign. -/
def int64 (value : Int64) : Writes Unit :=
  word64 value.toUInt64

/-- An identifier. -/
def uuid (id : Uuid) : Writes Unit :=
  put id.bytes

/-- A length as the wire holds it. -/
def lengthWord (length : Nat) : Except Fault UInt32 :=
  if length ≤ Misfit.lengthMax then
    .ok (UInt32.ofNat length)
  else
    .error (.encode (.length length))

/-- A number of listed items as the wire holds it. -/
def countWord (count : Nat) : Except Fault UInt16 :=
  if count ≤ 65535 then
    .ok (UInt16.ofNat count)
  else
    .error (.encode (.count count))

/-- Fail or succeed without writing. -/
def ofExcept {α : Type} : Except Fault α → Writes α
  | .ok value => pure value
  | .error fault => throw fault

/-- A byte string after its length, which is minus one if it is absent. -/
def byteArray : Option (List UInt8) → Writes Unit
  | none => int32 (-1)
  | some bytes => do
      reserve (4 + bytes.length)
      let length ← ofExcept (lengthWord bytes.length)
      word32 length
      put bytes

/-- A text after its length. -/
def text (text : String) : Writes Unit :=
  byteArray (some (Utf8.encode text))

/-- What `body` writes, after its length. -/
def lengthPrefixed (body : Writes Unit) : Writes Unit := do
  int32 0
  let origin := (← get).buffer.size
  body
  let length ← ofExcept (lengthWord ((← get).buffer.size - origin))
  modify fun draft =>
    { draft with
      buffer := Draft.overwrite draft.buffer (origin - 4) (BigEndian.ofNat 4 length.toNat) }

/-- Write items one after the other. -/
def each {α : Type} (write : α → Writes Unit) : List α → Writes Unit
  | [] => pure ()
  | item :: items => do
      write item
      each write items

/-- Items after their number. -/
def array {α : Type} (write : α → Writes Unit) (items : List α) : Writes Unit := do
  let count ← ofExcept (countWord items.length)
  word16 count
  each write items

/-- The bytes that `write` adds to nothing. -/
def run (write : Writes Unit) : Except Fault (List UInt8) :=
  match write (Draft.after #[] none) with
  | .ok () draft => .ok draft.buffer.toList
  | .error fault _ => .error fault

end Writes

/-- The size of a byte string after its length. -/
def byteArraySize (bytes : Option (List UInt8)) : Nat :=
  4 + (bytes.getD []).length

/-- The size of a text after its length. -/
def textSize (text : String) : Nat :=
  4 + (Utf8.encode text).length

/-- The size of items after their number. -/
def arraySize {α : Type} (size : α → Nat) (items : List α) : Nat :=
  items.foldl (fun total item => total + size item) 2

end SchemaWire
