import SchemaWire.Codec

/-!
# Timestamps as durations

A timestamp stands on the wire as the span between the start of the year 2000 and itself.
-/

namespace SchemaWire
namespace TimestampKind

/-- The value of a type of timestamp that shows a time. -/
def valueOf (kind : TimestampKind) (time : CivilTime) : Value :=
  match kind with
  | .datetime => .datetime time 0
  | .localDatetime => .localDatetime time
  | .wideDatetime => .wideDatetime time

/-- The timestamp that an inner value stands for. -/
def ofInner (kind : TimestampKind) (inner : Value) : Except Fault Value :=
  match inner with
  | .duration nanoseconds =>
      match kind.time? nanoseconds with
      | some time => .ok (kind.valueOf time)
      | none => .error (.decode (.timestampRange kind nanoseconds))
  | other => .error (.decode (.notCount other.kind))

/-- The inner value that stands for a timestamp. -/
def toInner (kind : TimestampKind) (outer : Value) : Except Fault Value :=
  match kind, outer with
  | .datetime, .datetime time offset => .ok (.duration (Value.instant time offset))
  | .localDatetime, .localDatetime time => .ok (.duration time.nanoseconds)
  | .wideDatetime, .wideDatetime time =>
      .ok (.duration (Span.microseconds time.nanoseconds * 1000))
  | kind, other => .error (.encode (.timestampMismatch kind other.kind))

end TimestampKind
end SchemaWire
