import SchemaWire.Fault

/-!
# Codecs

A codec says how the values of one schema type stand on the wire.  Codecs nest: a timestamp stands
as the value of an inner scalar, and sets, arrays and tuples hold values of other types.
-/

namespace SchemaWire

/-- How a scalar stands on the wire. -/
inductive ScalarKind where
  /-- An identifier. -/
  | uuid
  /-- A text. -/
  | text
  /-- A byte string. -/
  | bytes
  /-- Two bytes with sign. -/
  | int16
  /-- Four bytes with sign. -/
  | int32
  /-- Eight bytes with sign. -/
  | int64
  /-- A single-precision number. -/
  | float32
  /-- A double-precision number. -/
  | float64
  /-- A truth value. -/
  | bool
  /-- A JSON document after a byte for its format. -/
  | json
  /-- A number of microseconds, and eight bytes that once held days and months. -/
  | duration
  deriving DecidableEq, Repr

/-- The number that opens a JSON document. -/
def jsonFormat : UInt8 := 1

/-- How the values of a schema type stand on the wire. -/
inductive Codec where
  /-- A scalar. -/
  | scalar (type : Uuid) (kind : ScalarKind)
  /-- A timestamp, standing as a value of an inner scalar. -/
  | timestamp (type : Uuid) (inner : Codec) (kind : TimestampKind)
  /-- An enumeration with its members in order. -/
  | enumeration (type : Uuid) (members : List String)
  /-- A set of values of an inner type. -/
  | set (type : Uuid) (element : Codec)
  /-- An array of values of an inner type. -/
  | array (type : Uuid) (element : Codec)
  /-- A tuple of one value of each of some types. -/
  | tuple (type : Uuid) (elements : List Codec)
  deriving Repr, Inhabited

namespace Codec

/-- The type whose values a codec reads and writes. -/
def typeId : Codec → Uuid
  | .scalar type _ | .timestamp type _ _ | .enumeration type _ | .set type _ | .array type _
  | .tuple type _ => type

/-- Whether a codec stands for a scalar. -/
def isScalar : Codec → Bool
  | .scalar _ _ | .timestamp _ _ _ => true
  | _ => false

/-- Whether the elements of a set of this type stand in envelopes. -/
def isEnveloped : Codec → Bool
  | .array _ _ => true
  | _ => false

/-- The codec of a timestamp type over an inner codec, which has to be that of a scalar. -/
def adapt (type : Uuid) (inner : Codec) (kind : TimestampKind) : Except Fault Codec :=
  if inner.isScalar then
    .ok (.timestamp type inner kind)
  else
    .error (.unsupportedShape type (.adapter kind inner.typeId))

/-- The codec of a type derived from the type of a scalar or an enumeration. -/
def derive (codec : Codec) (type : Uuid) : Except Fault Codec :=
  match codec with
  | .scalar _ kind => .ok (.scalar type kind)
  | .timestamp _ inner kind => adapt type inner kind
  | .enumeration _ members => .ok (.enumeration type members)
  | codec => .error (.unsupportedShape type (.underived codec.typeId))

/-- Fail unless a name is one of the members of an enumeration. -/
def checkMember (type : Uuid) (members : List String) (name : String) : Except Fault Unit :=
  if name ∈ members then
    .ok ()
  else
    .error (.cardinality type (.member name members))

end Codec
end SchemaWire
