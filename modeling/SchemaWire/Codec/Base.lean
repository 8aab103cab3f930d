import SchemaWire.Codec

/-!
# Base scalars

The scalars that every schema has, under the same identifiers in all of them.
-/

namespace SchemaWire
namespace Base

/-- The type of durations. -/
def duration : Uuid := .ofLow 0x10E

/-- The type of instants. -/
def datetime : Uuid := .ofLow 0x10A

/-- The type of times without a place. -/
def localDatetime : Uuid := .ofLow 0x10B

/-- The wire forms of the base scalars that are no timestamps. -/
def kinds : List (Uuid × ScalarKind) :=
  [(.ofLow 0x100, .uuid), (.ofLow 0x101, .text), (.ofLow 0x102, .bytes), (.ofLow 0x103, .int16),
    (.ofLow 0x104, .int32), (.ofLow 0x105, .int64), (.ofLow 0x106, .float32),
    (.ofLow 0x107, .float64), (.ofLow 0x109, .bool), (.ofLow 0x10F, .json), (duration, .duration)]

/-- The scalar that holds the microseconds of timestamps. -/
def microseconds : Codec := .scalar duration .duration

/-- The codec of a base scalar, if there is one under the identifier. -/
def codec? (type : Uuid) : Option Codec :=
  if type = datetime then some (.timestamp datetime microseconds .datetime)
  else if type = localDatetime then some (.timestamp localDatetime microseconds .localDatetime)
  else (kinds.lookup type).map (.scalar type)

/-- The codec of instants over the wide calendar. -/
def wideDatetime : Codec := .timestamp datetime microseconds .wideDatetime

end Base
end SchemaWire
