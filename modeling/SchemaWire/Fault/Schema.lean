import SchemaWire.Calendar.Timestamp
import SchemaWire.Calendar.Span
import SchemaWire.Misfit
import SchemaWire.Text.Hex
import SchemaWire.Text.Quoted
import SchemaWire.Text.Utf8
import SchemaWire.Value

/-!
# Schema faults

Types that are not supported, descriptors that describe nothing, and bytes and values that do not
belong to a type.
-/

namespace SchemaWire

/-- Why a shape of type is not supported. -/
inductive ShapeFault where
  /-- Bytes of an array have another number of dimensions than one. -/
  | arrayRank (dimensions : Int)
  /-- Bytes of a set have another number of dimensions than one. -/
  | setRank (dimensions : Int)
  /-- A descriptor of an array has another number of dimensions than one. -/
  | describedRank (dimensions : Nat)
  /-- Only scalars and enumerations have derived types. -/
  | underived (source : Uuid)
  /-- A timestamp is built over a scalar only. -/
  | adapter (kind : TimestampKind) (inner : Uuid)
  /-- Sets are only received. -/
  | setWriting
  /-- Object shapes are not read. -/
  | objectShape
  /-- Named tuples are not read. -/
  | namedTuple
  /-- Input shapes are not written. -/
  | inputShape
  /-- Ranges are not read. -/
  | range
  deriving DecidableEq, Repr

/-- A fault of a shape in words. -/
def ShapeFault.message : ShapeFault → String
  | .arrayRank dimensions => s!"array of {dimensions} dimensions, only 1 is supported"
  | .setRank dimensions => s!"set of {dimensions} dimensions, only 1 is supported"
  | .describedRank dimensions => s!"array of {dimensions} dimensions"
  | .underived source => s!"cannot derive a scalar from {source.text}"
  | .adapter kind inner => s!"{kind.name} adapter needs a scalar inner codec, got {inner.text}"
  | .setWriting => "sets cannot be serialized"
  | .objectShape => "object shapes are not decoded"
  | .namedTuple => "named tuples are not decoded"
  | .inputShape => "input shapes are not encoded"
  | .range => "ranges are not decoded"

/-- Why a number of elements, or a member, is not what a type declares. -/
inductive CardinalityFault where
  /-- The bytes of a tuple hold another number of elements. -/
  | tupleFound (declared : Nat) (found : Int)
  /-- A tuple to write has another number of elements. -/
  | tupleGiven (declared given : Nat)
  /-- The envelope of a set element holds another number of elements than one. -/
  | envelope (found : Int)
  /-- An enumeration has no such member. -/
  | member (name : String) (members : List String)
  deriving DecidableEq, Repr

/-- A fault of cardinality in words. -/
def CardinalityFault.message : CardinalityFault → String
  | .tupleFound declared found => s!"tuple declares {declared} elements, found {found}"
  | .tupleGiven declared given => s!"tuple declares {declared} elements, got {given}"
  | .envelope found => s!"envelope should contain 1 element, found {found}"
  | .member name members => s!"{Quoted.name name} is not one of {Quoted.names members}"

/-- Why a descriptor describes no codec. -/
inductive ResolutionFault where
  /-- The tag belongs to no sort of descriptor. -/
  | unknownTag (tag : UInt8)
  /-- No base scalar has the identifier. -/
  | baseScalar
  /-- A reference leads to a descriptor that has not been resolved yet. -/
  | ahead (position resolved : Nat)
  /-- A reference leads to a remark. -/
  | remark
  /-- The stream describes no type. -/
  | empty
  deriving DecidableEq, Repr

/-- A fault of resolution in words. -/
def ResolutionFault.message : ResolutionFault → String
  | .unknownTag tag => "unknown descriptor tag 0x" ++ Hex.padded 2 tag.toNat
  | .baseScalar => "unknown base scalar"
  | .ahead position resolved =>
      s!"reference to position {position} before it is defined ({resolved} resolved so far)"
  | .remark => "reference to a type annotation"
  | .empty => "empty descriptor stream"

/-- Where a text stands. -/
inductive TextPlace where
  /-- In a field of a message. -/
  | field
  /-- In a scalar. -/
  | scalar
  /-- In an enumeration. -/
  | enumeration
  deriving DecidableEq, Repr

/-- The name of the place of a text. -/
def TextPlace.name : TextPlace → String
  | .field => "read_string: invalid UTF-8"
  | .scalar => "str"
  | .enumeration => "enum"

/-- Why bytes are no value of a type. -/
inductive DecodeFault where
  /-- The bytes of a text are none. -/
  | text (place : TextPlace) (flaw : Utf8.Flaw)
  /-- A byte is no truth value. -/
  | bool (byte : UInt8)
  /-- A JSON document is in an unknown format. -/
  | jsonFormat (format : UInt8)
  /-- The bounds of a dimension enclose less than nothing, or too much. -/
  | bounds (type : Uuid) (upper lower : Int) (misfit : Misfit)
  /-- An array lacks an element. -/
  | absentElement (type : Uuid) (index : Nat)
  /-- A timestamp is not built over a count of microseconds. -/
  | notCount (kind : Value.Kind)
  /-- A timestamp is outside its calendar. -/
  | timestampRange (kind : TimestampKind) (nanoseconds : Int)
  deriving DecidableEq, Repr

/-- A fault of decoding in words. -/
def DecodeFault.message : DecodeFault → String
  | .text place flaw => s!"{place.name}: {flaw.message}"
  | .bool byte => s!"invalid bool byte: {byte.toNat}"
  | .jsonFormat format => s!"unsupported json format: {format.toNat}"
  | .bounds type upper lower misfit =>
      s!"type {type.text}: invalid dimension bounds upper={upper} lower={lower}: {misfit.message}"
  | .absentElement type index => s!"array {type.text} has an absent element at index {index}"
  | .notCount kind => s!"expected a microsecond count, got {kind.name}"
  | .timestampRange .wideDatetime nanoseconds =>
      s!"{TimestampKind.wideDatetime.name} out of range: {Span.microseconds nanoseconds}"
  | .timestampRange kind nanoseconds => s!"{kind.name} out of range: {Span.text nanoseconds}"

/-- The sort of a codec, as far as it tells values that it cannot write. -/
inductive CodecKind where
  /-- Scalars. -/
  | scalar
  /-- Enumerations. -/
  | enumeration
  /-- Arrays. -/
  | array
  /-- Tuples. -/
  | tuple
  deriving DecidableEq, Repr

/-- The name of a sort of codec. -/
def CodecKind.name : CodecKind → String
  | .scalar => "scalar"
  | .enumeration => "enum"
  | .array => "array"
  | .tuple => "tuple"

/-- Why a value cannot be written. -/
inductive EncodeFault where
  /-- The codec writes values of another sort. -/
  | mismatch (codec : CodecKind) (type : Uuid) (kind : Value.Kind)
  /-- The timestamp codec writes values of another sort. -/
  | timestampMismatch (codec : TimestampKind) (kind : Value.Kind)
  /-- A duration has too many microseconds. -/
  | duration (type : Uuid) (misfit : Misfit)
  /-- A length is too large for its place. -/
  | length (length : Nat)
  /-- A count is too large for its place. -/
  | count (count : Nat)
  deriving DecidableEq, Repr

/-- A fault of encoding in words. -/
def EncodeFault.message : EncodeFault → String
  | .mismatch codec type kind =>
      s!"{codec.name} codec for type {type.text} cannot encode a {kind.name} value"
  | .timestampMismatch codec kind => s!"{codec.name} codec cannot encode a {kind.name} value"
  | .duration type misfit => s!"duration out of range for type {type.text}: {misfit.message}"
  | .length size => s!"length {size} exceeds i32: {Misfit.large.message}"
  | .count number => s!"count {number} exceeds u16: {Misfit.large.message}"

end SchemaWire
