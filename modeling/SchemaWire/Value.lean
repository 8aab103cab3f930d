import SchemaWire.Calendar.Civil
import SchemaWire.Uuid

/-!
# Values

What a codec reads from the wire and writes to it.  Absence is not a value: a set, a tuple and a
message hold optional values where something may be absent.
-/

namespace SchemaWire

/-- A value of some schema type. -/
inductive Value where
  /-- An identifier. -/
  | uuid (id : Uuid)
  /-- A text. -/
  | text (text : String)
  /-- A byte string. -/
  | bytes (bytes : List UInt8)
  /-- A number of sixteen bits. -/
  | int16 (number : Int16)
  /-- A number of thirty-two bits. -/
  | int32 (number : Int32)
  /-- A number of sixty-four bits. -/
  | int64 (number : Int64)
  /-- A single-precision number, by its bits. -/
  | float32 (bits : UInt32)
  /-- A double-precision number, by its bits. -/
  | float64 (bits : UInt64)
  /-- A truth value. -/
  | bool (truth : Bool)
  /-- The text of a JSON document. -/
  | json (text : String)
  /-- A span of time in nanoseconds. -/
  | duration (nanoseconds : Int)
  /-- The instant that clocks `offset` seconds ahead of universal time show as `time`. -/
  | datetime (time : CivilTime) (offset : Int)
  /-- A date and time of day without a place. -/
  | localDatetime (time : CivilTime)
  /-- An instant, in universal time, of the wide calendar. -/
  | wideDatetime (time : CivilTime)
  /-- A member of an enumeration. -/
  | member (name : String)
  /-- The elements of a set. -/
  | set (elements : List (Option Value))
  /-- The elements of an array. -/
  | array (elements : List Value)
  /-- The elements of a tuple. -/
  | tuple (elements : List (Option Value))
  deriving Repr, Inhabited

namespace Value

/-- What sort of value it is, without its content. -/
inductive Kind where
  /-- Identifiers. -/
  | uuid
  /-- Texts. -/
  | text
  /-- Byte strings. -/
  | bytes
  /-- Numbers of sixteen bits. -/
  | int16
  /-- Numbers of thirty-two bits. -/
  | int32
  /-- Numbers of sixty-four bits. -/
  | int64
  /-- Single-precision numbers. -/
  | float32
  /-- Double-precision numbers. -/
  | float64
  /-- Truth values. -/
  | bool
  /-- JSON documents. -/
  | json
  /-- Spans of time. -/
  | duration
  /-- Instants. -/
  | datetime
  /-- Times without a place. -/
  | localDatetime
  /-- Instants of the wide calendar. -/
  | wideDatetime
  /-- Members of enumerations. -/
  | member
  /-- Sets. -/
  | set
  /-- Arrays. -/
  | array
  /-- Tuples. -/
  | tuple
  deriving DecidableEq, Repr

/-- The name of a sort of value. -/
def Kind.name : Kind → String
  | .uuid => "uuid"
  | .text => "str"
  | .bytes => "bytes"
  | .int16 => "int16"
  | .int32 => "int32"
  | .int64 => "int64"
  | .float32 => "float32"
  | .float64 => "float64"
  | .bool => "bool"
  | .json => "json"
  | .duration => "duration"
  | .datetime => "datetime"
  | .localDatetime => "local_datetime"
  | .wideDatetime => "chrono datetime"
  | .member => "enum"
  | .set => "set"
  | .array => "array"
  | .tuple => "tuple"

/-- The sort of a value. -/
def kind : Value → Kind
  | .uuid _ => .uuid
  | .text _ => .text
  | .bytes _ => .bytes
  | .int16 _ => .int16
  | .int32 _ => .int32
  | .int64 _ => .int64
  | .float32 _ => .float32
  | .float64 _ => .float64
  | .bool _ => .bool
  | .json _ => .json
  | .duration _ => .duration
  | .datetime _ _ => .datetime
  | .localDatetime _ => .localDatetime
  | .wideDatetime _ => .wideDatetime
  | .member _ => .member
  | .set _ => .set
  | .array _ => .array
  | .tuple _ => .tuple

/-- Nanoseconds from the start of the year 2000, in universal time, to the instant that clocks
`offset` seconds ahead show as `time`. -/
def instant (time : CivilTime) (offset : Int) : Int :=
  time.nanoseconds - offset * 1000000000

/-- Whether bits with an exponent of `exponent` bits over a fraction of `fraction` bits are no
number. -/
def isNan (exponent fraction bits : Nat) : Bool :=
  bits >>> fraction % 1 <<< exponent = 1 <<< exponent - 1 && bits % 1 <<< fraction ≠ 0

/-- Whether two floating-point numbers given by their bits compare equal: what is no number
differs from everything, and both zeros are one number. -/
def sameFloat (exponent fraction left right : Nat) : Bool :=
  !isNan exponent fraction left && !isNan exponent fraction right &&
    (left = right ||
      left % 1 <<< (exponent + fraction) = 0 && right % 1 <<< (exponent + fraction) = 0)

mutual

/-- Whether two values compare equal.  Floating-point numbers compare as numbers, and instants
as points in time. -/
def same : Value → Value → Bool
  | .uuid left, .uuid right => left = right
  | .text left, .text right => left = right
  | .bytes left, .bytes right => left = right
  | .int16 left, .int16 right => left = right
  | .int32 left, .int32 right => left = right
  | .int64 left, .int64 right => left = right
  | .float32 left, .float32 right => sameFloat 8 23 left.toNat right.toNat
  | .float64 left, .float64 right => sameFloat 11 52 left.toNat right.toNat
  | .bool left, .bool right => left = right
  | .json left, .json right => left = right
  | .duration left, .duration right => left = right
  | .datetime left leftOffset, .datetime right rightOffset =>
      instant left leftOffset = instant right rightOffset
  | .localDatetime left, .localDatetime right => left = right
  | .wideDatetime left, .wideDatetime right => left = right
  | .member left, .member right => left = right
  | .set left, .set right => sameSlots left right
  | .array left, .array right => sameElements left right
  | .tuple left, .tuple right => sameSlots left right
  | _, _ => false

/-- Whether two lists of values compare equal, element by element. -/
def sameElements : List Value → List Value → Bool
  | [], [] => true
  | left :: lefts, right :: rights => same left right && sameElements lefts rights
  | _, _ => false

/-- Whether two lists of optional values compare equal, slot by slot. -/
def sameSlots : List (Option Value) → List (Option Value) → Bool
  | [], [] => true
  | none :: lefts, none :: rights => sameSlots lefts rights
  | some left :: lefts, some right :: rights => same left right && sameSlots lefts rights
  | _, _ => false

end

end Value
end SchemaWire
