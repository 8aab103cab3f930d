import SchemaWire.BigEndian
import SchemaWire.Text.Hex

/-!
# Identifiers

Types, descriptions and generations are named by 128-bit identifiers, which the wire carries as
two words.
-/

namespace SchemaWire

/-- A 128-bit identifier. -/
structure Uuid where
  /-- The first eight bytes. -/
  high : UInt64
  /-- The last eight bytes. -/
  low : UInt64
  deriving DecidableEq, Repr, Inhabited

namespace Uuid

/-- The identifier of nothing. -/
def nil : Uuid := ⟨0, 0⟩

/-- The identifier whose last word is `low` and whose other bytes are zero. -/
def ofLow (low : UInt64) : Uuid := ⟨0, low⟩

/-- The sixteen bytes of an identifier. -/
def bytes (id : Uuid) : List UInt8 :=
  BigEndian.ofNat 8 id.high.toNat ++ BigEndian.ofNat 8 id.low.toNat

/-- Groups of eight, four, four, four and twelve digits, joined by hyphens. -/
def text (id : Uuid) : String :=
  let high := Hex.fixed 16 id.high.toNat
  let low := Hex.fixed 16 id.low.toNat
  String.ofList (high.take 8 ++ '-' :: (high.drop 8).take 4 ++ '-' :: high.drop 12 ++
    '-' :: low.take 4 ++ '-' :: low.drop 4)

@[simp]
theorem length_bytes (id : Uuid) : id.bytes.length = 16 := by
  simp [bytes]

end Uuid
end SchemaWire
