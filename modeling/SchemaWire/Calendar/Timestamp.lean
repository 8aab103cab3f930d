import SchemaWire.Calendar.Civil

/-!
# Timestamp types

Three types of timestamp share one wire form, a count of microseconds from the start of the
year 2000.  They differ in the years that they cover.
-/

namespace SchemaWire

/-- A type of timestamp. -/
inductive TimestampKind where
  /-- An instant, shown in universal time. -/
  | datetime
  /-- A date and time of day without a place. -/
  | localDatetime
  /-- An instant in universal time over a calendar of half a million years. -/
  | wideDatetime
  deriving DecidableEq, Repr

namespace TimestampKind

/-- The name of a type of timestamp. -/
def name : TimestampKind → String
  | .datetime => "datetime"
  | .localDatetime => "local_datetime"
  | .wideDatetime => "chrono datetime"

/-- The first and the last year that a type covers. -/
def years : TimestampKind → Int × Int
  | .datetime | .localDatetime => (-9999, 9999)
  | .wideDatetime => (-262143, 262142)

/-- The time a number of nanoseconds after the start of the year 2000, if the type covers it. -/
def time? (kind : TimestampKind) (nanoseconds : Int) : Option CivilTime :=
  CivilTime.within? kind.years.1 kind.years.2 nanoseconds

end TimestampKind
end SchemaWire
