import SchemaWire.Codec.Timestamp
import SchemaWire.Wire.Reading

/-!
# Decoding

Reading the values of a type.  The elements of arrays and tuples, and those of sets that are no
arrays, are byte strings of their own, each of which its codec has to read as a whole.
-/

namespace SchemaWire

/-- Read a scalar. -/
def ScalarKind.read : ScalarKind → Reads Value
  | .uuid => do
      let id ← Reads.uuid
      pure (.uuid id)
  | .text => do
      let bytes ← Reads.rest
      let text ← Reads.ofExcept (Reads.textOf .scalar bytes)
      pure (.text text)
  | .bytes => do
      let bytes ← Reads.rest
      pure (.bytes bytes)
  | .int16 => do
      let number ← Reads.int16
      pure (.int16 number)
  | .int32 => do
      let number ← Reads.int32
      pure (.int32 number)
  | .int64 => do
      let number ← Reads.int64
      pure (.int64 number)
  | .float32 => do
      let bits ← Reads.float32
      pure (.float32 bits)
  | .float64 => do
      let bits ← Reads.float64
      pure (.float64 bits)
  | .bool => do
      let byte ← Reads.byte
      if byte = 0 then pure (.bool false)
      else if byte = 1 then pure (.bool true)
      else throw (.decode (.bool byte))
  | .json => do
      let format ← Reads.byte
      if format = jsonFormat then
        let bytes ← Reads.rest
        let text ← Reads.ofExcept (Reads.textOf .scalar bytes)
        pure (.json text)
      else
        throw (.decode (.jsonFormat format))
  | .duration => do
      let microseconds ← Reads.int64
      Reads.skip 8
      pure (.duration (microseconds.toInt * 1000))

namespace Codec

/-- The number of elements between inclusive bounds. -/
def dimensionLength (type : Uuid) (upper lower : Int32) : Except Fault Nat :=
  let length := upper.toInt - lower.toInt + 1
  match Misfit.of? 0 Misfit.countMax length with
  | none => .ok length.toNat
  | some misfit => .error (.decode (.bounds type upper.toInt lower.toInt misfit))

/-- Read the bounds of the one dimension, and the number of elements between them. -/
def readLength (type : Uuid) : Reads Nat := do
  let upper ← Reads.int32
  let lower ← Reads.int32
  Reads.ofExcept (dimensionLength type upper lower)

/-- Read a whole byte string, if there is one. -/
def readWithin (read : Reads Value) (bytes : Option (List UInt8)) : Reads (Option Value) :=
  match bytes with
  | none => pure none
  | some bytes => do
      let value ← Reads.ofExcept ((Reads.whole read).run bytes)
      pure (some value)

/-- Read the header of an array and then its elements, of which none may be absent. -/
def readArray (type : Uuid) (read : Reads Value) : Reads Value := do
  let dimensions ← Reads.int32
  Reads.skip 8
  if dimensions = 0 then
    pure (.array [])
  else if dimensions = 1 then
    let length ← readLength type
    let elements ← Reads.numbered
      (fun index => do
        let bytes ← Reads.element
        match ← readWithin read bytes with
        | some value => pure value
        | none => throw (.decode (.absentElement type index)))
      length
    pure (.array elements)
  else
    throw (.unsupportedShape type (.arrayRank dimensions.toInt))

/-- Read an element of a set that stands in an envelope. -/
def readEnveloped (type : Uuid) (read : Reads Value) : Reads (Option Value) := do
  Reads.skip 4
  let count ← Reads.int32
  if count = 1 then
    Reads.skip 4
    let value ← read
    pure (some value)
  else
    throw (.cardinality type (.envelope count.toInt))

/-- Read the header of a set and then its elements.  The header of an empty set may end after the
number of dimensions. -/
def readSet (type : Uuid) (enveloped : Bool) (read : Reads Value) : Reads Value := do
  let dimensions ← Reads.int32
  if dimensions = 0 then
    unless ← Reads.atEnd do
      Reads.skip 8
    pure (.set [])
  else if dimensions = 1 then
    Reads.skip 8
    let length ← readLength type
    let elements ←
      if enveloped then
        Reads.repeated (readEnveloped type read) length
      else
        Reads.repeated
          (do
            let bytes ← Reads.byteArray
            readWithin read bytes)
          length
    pure (.set elements)
  else
    throw (.unsupportedShape type (.setRank dimensions.toInt))

/-- Read a slot of a tuple. -/
def readSlot (read : Reads Value) : Reads (Option Value) := do
  Reads.skip 4
  let bytes ← Reads.element
  readWithin read bytes

mutual

/-- Read a value. -/
def read : Codec → Reads Value
  | .scalar _ kind => kind.read
  | .timestamp _ inner kind => do
      let value ← read inner
      Reads.ofExcept (kind.ofInner value)
  | .enumeration type members => do
      let bytes ← Reads.rest
      let name ← Reads.ofExcept (Reads.textOf .enumeration bytes)
      Reads.ofExcept (checkMember type members name)
      pure (.member name)
  | .set type element => readSet type element.isEnveloped (read element)
  | .array type element => readArray type (read element)
  | .tuple type elements => do
      let count ← Reads.int32
      if count.toInt = elements.length then
        let slots ← readSlots elements []
        pure (.tuple slots)
      else
        throw (.cardinality type (.tupleFound elements.length count.toInt))

/-- Read a slot of a tuple for each codec, after the slots `done` in reverse. -/
def readSlots : List Codec → (done : List (Option Value)) → Reads (List (Option Value))
  | [], done => pure done.reverse
  | codec :: codecs, done => do
      let slot ← readSlot (read codec)
      readSlots codecs (slot :: done)

end

/-- The value that a whole byte string stands for; an absent one stands for none. -/
def decode (codec : Codec) (bytes : Option (List UInt8)) : Except Fault (Option Value) :=
  match bytes with
  | none => .ok none
  | some bytes =>
      match (Reads.whole codec.read).run bytes with
      | .ok value => .ok (some value)
      | .error fault => .error fault

end Codec
end SchemaWire
