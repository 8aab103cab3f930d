import SchemaWire.Digest.Sha256

/-!
# Keyed digests

The message authentication code over SHA-256, and the key that a password, a salt and an iteration
count stretch to.
-/

namespace SchemaWire
namespace Keyed

/-- A key filled up with zeros to a block; a key longer than a block stands as its digest. -/
def block (key : List UInt8) : List UInt8 :=
  let short := if 64 < key.length then Sha256.hash key else key
  short ++ List.replicate (64 - short.length) 0

/-- The authentication code of a message under a key. -/
def code (key message : List UInt8) : List UInt8 :=
  let key := block key
  Sha256.hash (key.map (· ^^^ 0x5C) ++ Sha256.hash (key.map (· ^^^ 0x36) ++ message))

/-- Bytewise exclusive or. -/
def xor (left right : List UInt8) : List UInt8 :=
  List.zipWith (· ^^^ ·) left right

/-- Continue a chain of codes from `last` for `count` links, and combine all of them with
`total`. -/
def stretch (password : List UInt8) : (count : Nat) → (last total : List UInt8) → List UInt8
  | 0, _, total => total
  | count + 1, last, total =>
      let next := code password last
      stretch password count next (xor total next)

/-- The key of thirty-two bytes that a password stretches to.  The first link is always made, so
a count of zero stands for one. -/
def derive (password salt : List UInt8) (iterations : Nat) : List UInt8 :=
  let first := code password (salt ++ [0, 0, 0, 1])
  stretch password (iterations - 1) first first

@[simp]
theorem length_code (key message : List UInt8) : (code key message).length = 32 := by
  simp [code]

theorem length_xor (left right : List UInt8) :
    (xor left right).length = min left.length right.length := by
  simp [xor]

end Keyed
end SchemaWire
