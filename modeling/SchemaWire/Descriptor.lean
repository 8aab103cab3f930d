import SchemaWire.Letter
import SchemaWire.Wire.Reading

/-!
# Type descriptors

A server describes types as a stream of descriptors.  Each has a tag and the identifier of the type
that it describes; where it refers to another type it names the position of an earlier descriptor.
-/

namespace SchemaWire

/-- An element of an object shape or an input shape. -/
structure ShapeElement where
  /-- Flags without a meaning here. -/
  flags : UInt32
  /-- How many values the element has. -/
  cardinality : Cardinality
  /-- The name of the element. -/
  name : String
  /-- The position of its type. -/
  type : UInt16
  deriving DecidableEq, Repr

/-- Read an element of a shape. -/
def ShapeElement.read : Reads ShapeElement := do
  let flags ← Reads.word32
  let letter ← Reads.byte
  let cardinality ← Reads.ofExcept (Cardinality.ofByte letter)
  let name ← Reads.text
  let type ← Reads.word16
  pure { flags, cardinality, name, type }

/-- A description of a type, or a remark on one. -/
inductive Descriptor where
  /-- A set of values of an earlier type. -/
  | set (id : Uuid) (element : UInt16)
  /-- The shape of objects. -/
  | objectShape (id : Uuid) (elements : List ShapeElement)
  /-- A scalar that every schema has. -/
  | baseScalar (id : Uuid)
  /-- A scalar derived from an earlier type. -/
  | scalar (id : Uuid) (base : UInt16)
  /-- A tuple of values of earlier types. -/
  | tuple (id : Uuid) (elements : List UInt16)
  /-- A tuple with names for its values. -/
  | namedTuple (id : Uuid) (elements : List (String × UInt16))
  /-- An array of values of an earlier type; a dimension may be unbounded. -/
  | array (id : Uuid) (element : UInt16) (dimensions : List (Option UInt32))
  /-- An enumeration with its members in order. -/
  | enumeration (id : Uuid) (members : List String)
  /-- The shape of input. -/
  | inputShape (id : Uuid) (elements : List ShapeElement)
  /-- A range of values of an earlier type. -/
  | range (id : Uuid) (element : UInt16)
  /-- A text about a type; it has a position, but describes nothing. -/
  | remark (tag : UInt8) (id : Uuid) (text : String)
  deriving DecidableEq, Repr

namespace Descriptor

/-- The identifier of the type that is described. -/
def id : Descriptor → Uuid
  | .set id _ | .objectShape id _ | .baseScalar id | .scalar id _ | .tuple id _ | .namedTuple id _
  | .array id _ _ | .enumeration id _ | .inputShape id _ | .range id _ | .remark _ id _ => id

/-- Whether a descriptor is a remark. -/
def isRemark : Descriptor → Bool
  | .remark _ _ _ => true
  | _ => false

/-- The tag from which on descriptors are remarks. -/
def remarkTag : UInt8 := 0x80

/-- Read the name and the type of an element of a named tuple. -/
def readNamed : Reads (String × UInt16) := do
  let name ← Reads.text
  let type ← Reads.word16
  pure (name, type)

/-- Read a dimension; a negative length is that of an unbounded one. -/
def readDimension : Reads (Option UInt32) := do
  let length ← Reads.int32
  pure (if length < 0 then none else some length.toUInt32)

/-- Read what follows the tag and the identifier. -/
def readBody (tag : UInt8) (id : Uuid) : Reads Descriptor :=
  if tag = 0 then do
    let element ← Reads.word16
    pure (.set id element)
  else if tag = 1 then do
    let elements ← Reads.array .word16 ShapeElement.read
    pure (.objectShape id elements)
  else if tag = 2 then
    pure (.baseScalar id)
  else if tag = 3 then do
    let base ← Reads.word16
    pure (.scalar id base)
  else if tag = 4 then do
    let elements ← Reads.array .word16 Reads.word16
    pure (.tuple id elements)
  else if tag = 5 then do
    let elements ← Reads.array .word16 readNamed
    pure (.namedTuple id elements)
  else if tag = 6 then do
    let element ← Reads.word16
    let dimensions ← Reads.array .word16 readDimension
    pure (.array id element dimensions)
  else if tag = 7 then do
    let members ← Reads.array .word16 Reads.text
    pure (.enumeration id members)
  else if tag = 8 then do
    let elements ← Reads.array .word16 ShapeElement.read
    pure (.inputShape id elements)
  else if tag = 9 then do
    let element ← Reads.word16
    pure (.range id element)
  else if remarkTag ≤ tag then do
    let text ← Reads.text
    pure (.remark tag id text)
  else
    throw (.resolution id (.unknownTag tag))

/-- Read a descriptor. -/
def read : Reads Descriptor := do
  let tag ← Reads.byte
  let id ← Reads.uuid
  readBody tag id

/-- Read descriptors up to the end of the payload, at most `count` of them, after the descriptors
`done` in reverse. -/
def readUpTo : (count : Nat) → (done : List Descriptor) → Reads (List Descriptor)
  | 0, done => pure done.reverse
  | count + 1, done => do
      if ← Reads.atEnd then
        pure done.reverse
      else
        let descriptor ← read
        readUpTo count (descriptor :: done)

/-- The descriptors of a stream.  Each takes a byte at least, so there are no more of them than
bytes. -/
def ofStream (stream : List UInt8) : Except Fault (List Descriptor) :=
  (readUpTo stream.length []).run stream

end Descriptor
end SchemaWire
