import SchemaWire.Misfit
import SchemaWire.Text.Hex

/-!
# Framing faults

Lengths and counts that do not agree with the bytes that are there.
-/

namespace SchemaWire

/-- An integer as the wire holds it: its size, and whether it has a sign. -/
inductive Width where
  /-- One byte without sign. -/
  | byte
  /-- Two bytes with sign. -/
  | int16
  /-- Two bytes without sign. -/
  | word16
  /-- Four bytes with sign. -/
  | int32
  /-- Four bytes without sign. -/
  | word32
  /-- Eight bytes with sign. -/
  | int64
  /-- Eight bytes without sign. -/
  | word64
  deriving DecidableEq, Repr

/-- The name of a width. -/
def Width.name : Width → String
  | .byte => "U8"
  | .int16 => "I16"
  | .word16 => "U16"
  | .int32 => "I32"
  | .word32 => "U32"
  | .int64 => "I64"
  | .word64 => "U64"

/-- What was being read when the bytes ran out. -/
inductive Access where
  /-- Bytes to pass over. -/
  | skip
  /-- One byte. -/
  | byte
  /-- Two bytes with sign. -/
  | int16
  /-- Two bytes without sign. -/
  | word16
  /-- Four bytes with sign. -/
  | int32
  /-- Four bytes without sign. -/
  | word32
  /-- Eight bytes with sign. -/
  | int64
  /-- Eight bytes without sign. -/
  | word64
  /-- A single-precision number. -/
  | float32
  /-- A double-precision number. -/
  | float64
  /-- The bytes of a text. -/
  | text
  /-- Bytes of a length known beforehand. -/
  | bytes
  deriving DecidableEq, Repr

/-- The name that messages give to what was being read. -/
def Access.name : Access → String
  | .skip => "skip"
  | .byte => "read_u8"
  | .int16 => "read_i16"
  | .word16 => "read_u16"
  | .int32 => "read_i32"
  | .word32 => "read_u32"
  | .int64 => "read_i64"
  | .word64 => "read_u64"
  | .float32 => "read_f32"
  | .float64 => "read_f64"
  | .text => "read_string"
  | .bytes => "read_bytes"

/-- Why lengths and bytes do not agree. -/
inductive FramingFault where
  /-- A read needs more bytes than are left. -/
  | short (access : Access) (needed position left : Nat)
  /-- Bytes are left where none should be. -/
  | trailing (left position size : Nat)
  /-- An element count is out of range. -/
  | count (width : Width) (value : Int) (misfit : Misfit)
  /-- A write goes beyond what a message declares. -/
  | overflow (length limit written : Nat)
  /-- A message is shorter than it declares. -/
  | underfilled (opcode : UInt8) (declared written : Nat)
  /-- A frame declares a length that no frame has. -/
  | frameLength (opcode : UInt8) (declared : Int)
  /-- A frame is longer than the receiver accepts. -/
  | frameLimit (opcode : UInt8) (declared limit : Nat)
  deriving DecidableEq, Repr

/-- The character that stands for a message type. -/
def opcodeText (opcode : UInt8) : String :=
  String.ofList [Char.ofNat opcode.toNat]

/-- A framing fault in words. -/
def FramingFault.message : FramingFault → String
  | .short access needed position left =>
      s!"{access.name}: need {needed} bytes at offset {position}, only {left} remain"
  | .trailing left position size =>
      s!"{left} trailing bytes after decoding {position} of {size} bytes"
  | .count width value misfit =>
      s!"invalid {width.name} element count {value}: {misfit.message}"
  | .overflow length limit written =>
      s!"write of {length} bytes exceeds declared payload size {limit} ({written} already written)"
  | .underfilled opcode declared written =>
      "message 0x" ++ Hex.padded 2 opcode.toNat ++
        s!" declared {declared} payload bytes but wrote {written}"
  | .frameLength opcode declared =>
      s!"message '{opcodeText opcode}' declares invalid length {declared}"
  | .frameLimit opcode declared limit =>
      s!"message '{opcodeText opcode}' of {declared} bytes exceeds limit {limit}"

end SchemaWire
