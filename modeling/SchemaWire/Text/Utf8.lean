/-!
# UTF-8

Characters as one to four bytes, and a decoder that names the first byte at which a byte string
stops being text.  Only shortest forms of scalar values are text, so no two byte strings decode
to the same characters.
-/

namespace SchemaWire
namespace Utf8

/-- Why a byte string is not text. -/
inductive Flaw where
  /-- The `length` bytes from `index` on begin no character. -/
  | invalid (length index : Nat)
  /-- The bytes end inside the character that starts at `index`. -/
  | incomplete (index : Nat)
  deriving DecidableEq, Repr

/-- A flaw in words. -/
def Flaw.message : Flaw → String
  | .invalid length index =>
      s!"invalid utf-8 sequence of {length} bytes from index {index}"
  | .incomplete index => s!"incomplete utf-8 byte sequence from index {index}"

/-- The bytes of one character. -/
def encodeChar (char : Char) : List UInt8 :=
  let code := char.toNat
  if code < 0x80 then
    [UInt8.ofNat code]
  else if code < 0x800 then
    [UInt8.ofNat (0xC0 + code / 64), UInt8.ofNat (0x80 + code % 64)]
  else if code < 0x10000 then
    [UInt8.ofNat (0xE0 + code / 4096), UInt8.ofNat (0x80 + code / 64 % 64),
      UInt8.ofNat (0x80 + code % 64)]
  else
    [UInt8.ofNat (0xF0 + code / 262144), UInt8.ofNat (0x80 + code / 4096 % 64),
      UInt8.ofNat (0x80 + code / 64 % 64), UInt8.ofNat (0x80 + code % 64)]

/-- The bytes of a text. -/
def encode (text : String) : List UInt8 :=
  text.toList.flatMap encodeChar

/-- A byte that continues a character. -/
def isTail (byte : UInt8) : Bool :=
  0x80 ≤ byte && byte ≤ 0xBF

/-- Whether `second` may follow the first byte of a three-byte character.  The narrower ranges
leave out long forms and surrogates. -/
def followsThree (first second : UInt8) : Bool :=
  if first = 0xE0 then 0xA0 ≤ second && second ≤ 0xBF
  else if first = 0xED then 0x80 ≤ second && second ≤ 0x9F
  else isTail second

/-- Whether `second` may follow the first byte of a four-byte character.  The narrower ranges
leave out long forms and numbers above the last character. -/
def followsFour (first second : UInt8) : Bool :=
  if first = 0xF0 then 0x90 ≤ second && second ≤ 0xBF
  else if first = 0xF4 then 0x80 ≤ second && second ≤ 0x8F
  else isTail second

/-- The low six bits that a continuing byte carries. -/
def low (byte : UInt8) : Nat :=
  byte.toNat % 64

/-- Decode the bytes from `index` on, the characters before it being `done` in reverse. -/
def decodeFrom (index : Nat) (done : List Char) : List UInt8 → Except Flaw (List Char)
  | [] => .ok done.reverse
  | first :: rest =>
      if first < 0x80 then
        decodeFrom (index + 1) (Char.ofNat first.toNat :: done) rest
      else if 0xC2 ≤ first && first ≤ 0xDF then
        match rest with
        | [] => .error (.incomplete index)
        | second :: rest =>
            if isTail second then
              decodeFrom (index + 2) (Char.ofNat (first.toNat % 32 * 64 + low second) :: done) rest
            else
              .error (.invalid 1 index)
      else if 0xE0 ≤ first && first ≤ 0xEF then
        match rest with
        | [] => .error (.incomplete index)
        | second :: rest =>
            if followsThree first second then
              match rest with
              | [] => .error (.incomplete index)
              | third :: rest =>
                  if isTail third then
                    decodeFrom (index + 3)
                      (Char.ofNat (first.toNat % 16 * 4096 + low second * 64 + low third) :: done)
                      rest
                  else
                    .error (.invalid 2 index)
            else
              .error (.invalid 1 index)
      else if 0xF0 ≤ first && first ≤ 0xF4 then
        match rest with
        | [] => .error (.incomplete index)
        | second :: rest =>
            if followsFour first second then
              match rest with
              | [] => .error (.incomplete index)
              | third :: rest =>
                  if isTail third then
                    match rest with
                    | [] => .error (.incomplete index)
                    | fourth :: rest =>
                        if isTail fourth then
                          decodeFrom (index + 4)
                            (Char.ofNat (first.toNat % 8 * 262144 + low second * 4096
                              + low third * 64 + low fourth) :: done)
                            rest
                        else
                          .error (.invalid 3 index)
                  else
                    .error (.invalid 2 index)
            else
              .error (.invalid 1 index)
      else
        .error (.invalid 1 index)

/-- The text that a byte string holds. -/
def decode (bytes : List UInt8) : Except Flaw String :=
  match decodeFrom 0 [] bytes with
  | .ok chars => .ok (String.ofList chars)
  | .error flaw => .error flaw

@[simp]
theorem encode_empty : encode "" = [] := rfl

end Utf8
end SchemaWire
