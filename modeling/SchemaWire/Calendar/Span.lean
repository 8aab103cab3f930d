/-!
# Spans of time

A span is a whole number of nanoseconds, and is shown unit by unit from days down.
-/

namespace SchemaWire
namespace Span

/-- Units from the largest down: nanoseconds in the unit, and its sign. -/
def units : List (Nat × String) :=
  [(86400000000000, "d"), (3600000000000, "h"), (60000000000, "m"), (1000000000, "s"),
    (1000000, "ms"), (1000, "µs"), (1, "ns")]

/-- The units that a length holds, each with its count; a unit that it does not hold is left
out. -/
def spell : List (Nat × String) → Nat → String
  | [], _ => ""
  | (size, sign) :: smaller, length =>
      let count := length / size
      (if count = 0 then "" else toString count ++ sign) ++ spell smaller (length % size)

/-- A span in words. -/
def text (nanoseconds : Int) : String :=
  if nanoseconds = 0 then "0s"
  else (if nanoseconds < 0 then "-" else "") ++ spell units nanoseconds.natAbs

/-- The whole microseconds of a span, rounded toward zero. -/
def microseconds (nanoseconds : Int) : Int :=
  nanoseconds.tdiv 1000

end Span
end SchemaWire
