/-!
# Numbers that do not fit

A number read in one width or counted without bound may lie outside the range that its place
allows; the side on which it does is all that is said of it.
-/

namespace SchemaWire

/-- The side on which a number lies outside a range. -/
inductive Misfit where
  /-- The number is below the range. -/
  | small
  /-- The number is above the range. -/
  | large
  deriving DecidableEq, Repr

namespace Misfit

/-- A misfit in words. -/
def message : Misfit → String
  | .small => "number too small to fit in target type"
  | .large => "number too large to fit in target type"

/-- Where a number lies outside the range from `first` to `last`, if it does. -/
def of? (first last value : Int) : Option Misfit :=
  if value < first then some .small
  else if last < value then some .large
  else none

theorem of?_eq_none_iff {first last value : Int} :
    of? first last value = none ↔ first ≤ value ∧ value ≤ last := by
  unfold of?
  split
  · simp only [reduceCtorEq, false_iff]
    omega
  · split
    · simp only [reduceCtorEq, false_iff]
      omega
    · simp only [true_iff]
      omega

/-- The largest number of elements that a count can name. -/
def countMax : Nat := UInt64.size - 1

/-- The largest length that a prefixed length can name. -/
def lengthMax : Nat := UInt32.size / 2 - 1

end Misfit
end SchemaWire
