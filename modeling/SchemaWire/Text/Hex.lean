/-!
# Hexadecimal text

Digits, fixed-width numerals and byte strings in base sixteen, as identifiers and messages show
them.
-/

namespace SchemaWire
namespace Hex

/-- The lower-case digit of a number below sixteen. -/
def digit (value : Nat) : Char :=
  if value < 10 then Char.ofNat (48 + value) else Char.ofNat (87 + value)

/-- The last `width` digits of a number, most significant first. -/
def fixed : (width : Nat) → Nat → List Char
  | 0, _ => []
  | width + 1, value => digit (value >>> (4 * width) % 16) :: fixed width value

/-- The number of digits that a numeral without leading zeros needs, at least one. -/
def width (value : Nat) : Nat :=
  Nat.log2 value / 4 + 1

/-- A numeral without leading zeros. -/
def numeral (value : Nat) : String :=
  String.ofList (fixed (width value) value)

/-- A numeral of at least `count` lower-case digits, padded with zeros on the left. -/
def padded (count value : Nat) : String :=
  String.ofList (fixed (max count (width value)) value)

/-- A numeral of at least `count` upper-case digits, padded with zeros on the left. -/
def paddedUpper (count value : Nat) : String :=
  String.ofList ((fixed (max count (width value)) value).map Char.toUpper)

end Hex
end SchemaWire
