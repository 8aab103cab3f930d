import SchemaWire.BigEndian

/-!
# SHA-256

The digest of a byte string: it is padded to whole blocks of sixty-four bytes, and each block is
mixed into a chain of eight words by sixty-four rounds.
-/

namespace SchemaWire
namespace Sha256

/-- The eight words that the blocks of a message are mixed into. -/
structure Chain where
  /-- First word. -/
  a : UInt32
  /-- Second word. -/
  b : UInt32
  /-- Third word. -/
  c : UInt32
  /-- Fourth word. -/
  d : UInt32
  /-- Fifth word. -/
  e : UInt32
  /-- Sixth word. -/
  f : UInt32
  /-- Seventh word. -/
  g : UInt32
  /-- Eighth word. -/
  h : UInt32
  deriving DecidableEq, Repr

/-- The fractional bits of the square roots of the first eight primes. -/
def Chain.start : Chain :=
  ⟨0x6a09e667, 0xbb67ae85, 0x3c6ef372, 0xa54ff53a, 0x510e527f, 0x9b05688c, 0x1f83d9ab, 0x5be0cd19⟩

/-- The fractional bits of the cube roots of the first sixty-four primes, one word a round. -/
def roundWords : List UInt32 := [
  0x428a2f98, 0x71374491, 0xb5c0fbcf, 0xe9b5dba5, 0x3956c25b, 0x59f111f1, 0x923f82a4, 0xab1c5ed5,
  0xd807aa98, 0x12835b01, 0x243185be, 0x550c7dc3, 0x72be5d74, 0x80deb1fe, 0x9bdc06a7, 0xc19bf174,
  0xe49b69c1, 0xefbe4786, 0x0fc19dc6, 0x240ca1cc, 0x2de92c6f, 0x4a7484aa, 0x5cb0a9dc, 0x76f988da,
  0x983e5152, 0xa831c66d, 0xb00327c8, 0xbf597fc7, 0xc6e00bf3, 0xd5a79147, 0x06ca6351, 0x14292967,
  0x27b70a85, 0x2e1b2138, 0x4d2c6dfc, 0x53380d13, 0x650a7354, 0x766a0abb, 0x81c2c92e, 0x92722c85,
  0xa2bfe8a1, 0xa81a664b, 0xc24b8b70, 0xc76c51a3, 0xd192e819, 0xd6990624, 0xf40e3585, 0x106aa070,
  0x19a4c116, 0x1e376c08, 0x2748774c, 0x34b0bcb5, 0x391c0cb3, 0x4ed8aa4a, 0x5b9cca4f, 0x682e6ff3,
  0x748f82ee, 0x78a5636f, 0x84c87814, 0x8cc70208, 0x90befffa, 0xa4506ceb, 0xbef9a3f7, 0xc67178f2]

/-- Rotate a word to the right. -/
def rotate (word amount : UInt32) : UInt32 :=
  (word >>> amount) ||| (word <<< (32 - amount))

/-- The words of a block. -/
def words : List UInt8 → List UInt32
  | a :: b :: c :: d :: rest => UInt32.ofNat (BigEndian.toNat [a, b, c, d]) :: words rest
  | _ => []

/-- The word that follows at least sixteen words of a schedule. -/
def nextWord (schedule : Array UInt32) : UInt32 :=
  let back (distance : Nat) : UInt32 := schedule.getD (schedule.size - distance) 0
  let early := back 15
  let late := back 2
  back 16 + (rotate early 7 ^^^ rotate early 18 ^^^ (early >>> 3)) + back 7
    + (rotate late 17 ^^^ rotate late 19 ^^^ (late >>> 10))

/-- Extend a schedule by `count` words. -/
def extend : (count : Nat) → Array UInt32 → Array UInt32
  | 0, schedule => schedule
  | count + 1, schedule => extend count (schedule.push (nextWord schedule))

/-- One round: `word` is the sum of a round word and a schedule word. -/
def round (chain : Chain) (word : UInt32) : Chain :=
  let choice := (chain.e &&& chain.f) ^^^ (~~~ chain.e &&& chain.g)
  let majority := (chain.a &&& chain.b) ^^^ (chain.a &&& chain.c) ^^^ (chain.b &&& chain.c)
  let low := chain.h + (rotate chain.e 6 ^^^ rotate chain.e 11 ^^^ rotate chain.e 25) + choice
    + word
  let high := (rotate chain.a 2 ^^^ rotate chain.a 13 ^^^ rotate chain.a 22) + majority
  ⟨low + high, chain.a, chain.b, chain.c, chain.d + low, chain.e, chain.f, chain.g⟩

/-- Mix one block of sixty-four bytes into a chain. -/
def mix (chain : Chain) (block : List UInt8) : Chain :=
  let schedule := extend 48 (words block).toArray
  let last := (List.zipWith (· + ·) roundWords schedule.toList).foldl round chain
  ⟨chain.a + last.a, chain.b + last.b, chain.c + last.c, chain.d + last.d, chain.e + last.e,
    chain.f + last.f, chain.g + last.g, chain.h + last.h⟩

/-- Mix the first `count` blocks of a byte string into a chain. -/
def mixBlocks : (count : Nat) → Chain → List UInt8 → Chain
  | 0, chain, _ => chain
  | count + 1, chain, bytes => mixBlocks count (mix chain (bytes.take 64)) (bytes.drop 64)

/-- A message followed by a one bit, zeros up to a whole number of blocks, and its length in
bits as the last eight bytes. -/
def padded (message : List UInt8) : List UInt8 :=
  message ++ [0x80] ++ List.replicate ((119 - message.length % 64) % 64) 0
    ++ BigEndian.ofNat 8 (message.length * 8)

/-- The thirty-two bytes of a chain. -/
def Chain.bytes (chain : Chain) : List UInt8 :=
  [chain.a, chain.b, chain.c, chain.d, chain.e, chain.f, chain.g, chain.h].flatMap
    fun word => BigEndian.ofNat 4 word.toNat

/-- The digest of a message. -/
def hash (message : List UInt8) : List UInt8 :=
  let bytes := padded message
  (mixBlocks (bytes.length / 64) Chain.start bytes).bytes

@[simp]
theorem Chain.length_bytes (chain : Chain) : chain.bytes.length = 32 := by
  simp [Chain.bytes]

@[simp]
theorem length_hash (message : List UInt8) : (hash message).length = 32 := by
  simp [hash]

end Sha256
end SchemaWire
