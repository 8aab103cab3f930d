import SchemaWire.Flag
import SchemaWire.Wire.Annotated

/-!
# Routines

Whatever a program may do to read a payload: look at the cursor, ask for items of any kind, list
items that another program reads, open a cursor over a part of the payload and read from that in
between, and go on after a failure or not.
-/

namespace SchemaWire

/-- What a read comes to from a cursor on, and where it leaves the cursor. -/
def Reads.outcome {α : Type} (read : Reads α) (start : Cursor) : Except Fault α × Cursor :=
  match read start with
  | .ok value stop => (.ok value, stop)
  | .error fault stop => (.error fault, stop)

/-- A failure as the outcome of a read, so that others may follow it. -/
def Reads.attempt {α : Type} (read : Reads α) : Reads (Except Fault α) := fun start =>
  .ok (read.outcome start).1 (read.outcome start).2

/-- What a reader may be asked for, by the type of the answer. -/
inductive Request : Type → Type 1 where
  /-- A byte. -/
  | byte : Request UInt8
  /-- A byte with sign. -/
  | int8 : Request Int8
  /-- A truth value. -/
  | bool : Request Bool
  /-- Two bytes with sign. -/
  | int16 : Request Int16
  /-- Two bytes without sign. -/
  | word16 : Request UInt16
  /-- Four bytes with sign. -/
  | int32 : Request Int32
  /-- Four bytes without sign. -/
  | word32 : Request UInt32
  /-- Eight bytes with sign. -/
  | int64 : Request Int64
  /-- Eight bytes without sign. -/
  | word64 : Request UInt64
  /-- A single-precision number, by its bits. -/
  | float32 : Request UInt32
  /-- A double-precision number, by its bits. -/
  | float64 : Request UInt64
  /-- An integer of a width. -/
  | integer (width : Width) : Request Int
  /-- The flags that a number covers. -/
  | flags {α : Type} (table : FlagTable α) (width : Width) : Request (List α)
  /-- Bytes of a known length. -/
  | bytes (length : Nat) : Request (List UInt8)
  /-- Nothing, after some bytes have been passed over. -/
  | skip (length : Nat) : Request Unit
  /-- A cursor over the next bytes alone. -/
  | sub (length : Nat) : Request Cursor
  /-- An identifier. -/
  | uuid : Request Uuid
  /-- A text. -/
  | text : Request String
  /-- A byte string. -/
  | byteArray : Request (Option (List UInt8))
  /-- An element. -/
  | element : Request (Option (List UInt8))
  /-- A number of elements. -/
  | count (width : Width) : Request Nat
  /-- Texts after their number. -/
  | texts (width : Width) : Request (List String)
  /-- Annotations after their number. -/
  | annotations : Request (List NamedText)
  /-- Attributes after their number. -/
  | attributes : Request (List Attribute)
  /-- All bytes that are left. -/
  | rest : Request (List UInt8)
  /-- That no bytes are left. -/
  | finish : Request Unit

/-- Answer a request. -/
def Request.read : {α : Type} → Request α → Reads α
  | _, .byte => Reads.byte
  | _, .int8 => Reads.int8
  | _, .bool => Reads.bool
  | _, .int16 => Reads.int16
  | _, .word16 => Reads.word16
  | _, .int32 => Reads.int32
  | _, .word32 => Reads.word32
  | _, .int64 => Reads.int64
  | _, .word64 => Reads.word64
  | _, .float32 => Reads.float32
  | _, .float64 => Reads.float64
  | _, .integer width => Reads.integer width
  | _, .flags table width => table.read width
  | _, .bytes length => Reads.bytes length
  | _, .skip length => Reads.skip length
  | _, .sub length => Reads.sub length
  | _, .uuid => Reads.uuid
  | _, .text => Reads.text
  | _, .byteArray => Reads.byteArray
  | _, .element => Reads.element
  | _, .count width => Reads.count width
  | _, .texts width => Reads.array width Reads.text
  | _, .annotations => Reads.array .word16 NamedText.read
  | _, .attributes => Reads.array .word16 Attribute.read
  | _, .rest => Reads.rest
  | _, .finish => Reads.finish

/-- A program that reads.  What it does next may depend on all that it has been told. -/
inductive Routine : Type → Type 1 where
  /-- Succeed or fail. -/
  | done {α : Type} (result : Except Fault α) : Routine α
  /-- Look at the cursor. -/
  | look {α : Type} (next : Cursor → Routine α) : Routine α
  /-- Ask for an item. -/
  | ask {α β : Type} (request : Request β) (next : Except Fault β → Routine α) : Routine α
  /-- Read items after their number, each as another program does. -/
  | array {α β : Type} (width : Width) (item : Routine β)
      (next : Except Fault (List β) → Routine α) : Routine α
  /-- Read from another cursor as another program does. -/
  | within {α β : Type} (inner : Cursor) (body : Routine β)
      (next : Except Fault β → Cursor → Routine α) : Routine α

namespace Routine

/-- What a program reads. -/
def perform : {α : Type} → Routine α → Reads α
  | _, .done result => Reads.ofExcept result
  | _, .look next => do
      let cursor ← get
      (next cursor).perform
  | _, .ask request next => do
      let outcome ← Reads.attempt request.read
      (next outcome).perform
  | _, .array width item next => do
      let outcome ← Reads.attempt (Reads.array width item.perform)
      (next outcome).perform
  | _, .within inner body next =>
      (next (body.perform.outcome inner).1 (body.perform.outcome inner).2).perform

end Routine
end SchemaWire
