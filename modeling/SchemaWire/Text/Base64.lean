/-!
# Base64

Three bytes become four symbols of the standard alphabet; a last group of one or two bytes is
padded with equals signs.  The decoder accepts the canonical form alone, so what it accepts has
one spelling, and it names the first place at which a text departs from that form.
-/

namespace SchemaWire
namespace Base64

/-- Why a byte string is not canonical base64. -/
inductive Flaw where
  /-- The byte at `offset` is no symbol, or a padding sign out of place. -/
  | symbol (byte : UInt8) (offset : Nat)
  /-- The symbols end after `length`, with no whole byte in the last group. -/
  | truncated (length : Nat)
  /-- The last symbol at `offset` carries bits that belong to no byte. -/
  | lastSymbol (byte : UInt8) (offset : Nat)
  /-- The last group is not filled up with padding signs. -/
  | padding
  deriving DecidableEq, Repr

/-- A flaw in words. -/
def Flaw.message : Flaw → String
  | .symbol byte offset => s!"Invalid symbol {byte.toNat}, offset {offset}."
  | .truncated length => s!"Invalid input length: {length}"
  | .lastSymbol byte offset => s!"Invalid last symbol {byte.toNat}, offset {offset}."
  | .padding => "Invalid padding"

/-- The padding sign. -/
def pad : UInt8 := 61

/-- The symbol of a six-bit number. -/
def symbol (value : Nat) : UInt8 :=
  if value < 26 then UInt8.ofNat (65 + value)
  else if value < 52 then UInt8.ofNat (71 + value)
  else if value < 62 then UInt8.ofNat (value - 4)
  else if value = 62 then 43
  else 47

/-- The six-bit number of a symbol. -/
def value? (byte : UInt8) : Option Nat :=
  if 65 ≤ byte && byte ≤ 90 then some (byte.toNat - 65)
  else if 97 ≤ byte && byte ≤ 122 then some (byte.toNat - 71)
  else if 48 ≤ byte && byte ≤ 57 then some (byte.toNat + 4)
  else if byte = 43 then some 62
  else if byte = 47 then some 63
  else none

/-- The symbols of a byte string, padded to whole groups. -/
def encode : List UInt8 → List UInt8
  | [] => []
  | [a] =>
      let group := a.toNat * 65536
      [symbol (group / 262144), symbol (group / 4096 % 64), pad, pad]
  | [a, b] =>
      let group := a.toNat * 65536 + b.toNat * 256
      [symbol (group / 262144), symbol (group / 4096 % 64), symbol (group / 64 % 64), pad]
  | a :: b :: c :: rest =>
      let group := a.toNat * 65536 + b.toNat * 256 + c.toNat
      symbol (group / 262144) :: symbol (group / 4096 % 64) :: symbol (group / 64 % 64) ::
        symbol (group % 64) :: encode rest

/-- The symbols of a byte string as text. -/
def text (bytes : List UInt8) : String :=
  String.ofList ((encode bytes).map fun byte => Char.ofNat byte.toNat)

/-- The number of a symbol that stands at `offset`. -/
def valueAt (offset : Nat) (byte : UInt8) : Except Flaw Nat :=
  match value? byte with
  | some value => .ok value
  | none => .error (.symbol byte offset)

/-- The symbols that open a last group, as pairs of a symbol and its number; what follows them
can only be padding signs, and those only from the third place on. -/
def groupSymbols (offset : Nat) : (place : Nat) → List UInt8 → Except Flaw (List (UInt8 × Nat))
  | _, [] => .ok []
  | place, byte :: rest =>
      if byte = pad then
        if place < 2 then
          .error (.symbol byte (offset + place))
        else if rest.all (· = pad) then
          .ok []
        else
          .error (.symbol pad (offset + place))
      else do
        let value ← valueAt (offset + place) byte
        let others ← groupSymbols offset (place + 1) rest
        pure ((byte, value) :: others)

/-- The bytes of a last group of one to four characters that starts at `offset`. -/
def lastGroup (offset : Nat) (group : List UInt8) : Except Flaw (List UInt8) := do
  let symbols ← groupSymbols offset 0 group
  match symbols with
  | [] => .error (.truncated offset)
  | [_] => .error (.truncated (offset + 1))
  | [(_, a), (last, b)] =>
      if group.length % 4 ≠ 0 then .error .padding
      else if b % 16 ≠ 0 then .error (.lastSymbol last (offset + 1))
      else .ok [UInt8.ofNat (a * 4 + b / 16)]
  | [(_, a), (_, b), (last, c)] =>
      if group.length % 4 ≠ 0 then .error .padding
      else if c % 4 ≠ 0 then .error (.lastSymbol last (offset + 2))
      else .ok [UInt8.ofNat (a * 4 + b / 16), UInt8.ofNat (b % 16 * 16 + c / 4)]
  | (_, a) :: (_, b) :: (_, c) :: (_, d) :: _ =>
      .ok [UInt8.ofNat (a * 4 + b / 16), UInt8.ofNat (b % 16 * 16 + c / 4),
        UInt8.ofNat (c % 4 * 64 + d)]

/-- The bytes of the groups from `offset` on; the last group alone may be padded. -/
def decodeFrom (offset : Nat) : List UInt8 → Except Flaw (List UInt8)
  | [] => .ok []
  | a :: b :: c :: d :: next :: rest => do
      let a ← valueAt offset a
      let b ← valueAt (offset + 1) b
      let c ← valueAt (offset + 2) c
      let d ← valueAt (offset + 3) d
      let others ← decodeFrom (offset + 4) (next :: rest)
      pure (UInt8.ofNat (a * 4 + b / 16) :: UInt8.ofNat (b % 16 * 16 + c / 4) ::
        UInt8.ofNat (c % 4 * 64 + d) :: others)
  | group => lastGroup offset group

/-- The bytes that canonical base64 stands for.  A stray last byte that leaves a group of one is
named before all else, since it is most often a line end. -/
def decode (bytes : List UInt8) : Except Flaw (List UInt8) :=
  match bytes.getLast? with
  | none => .ok []
  | some last =>
      if bytes.length % 4 = 1 && last ≠ pad && (value? last).isNone then
        .error (.symbol last (bytes.length - 1))
      else
        decodeFrom 0 bytes

end Base64
end SchemaWire
