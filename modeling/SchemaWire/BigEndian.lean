/-!
# Big-endian words

Numbers stand on the wire with the most significant byte first.  Writing a number and reading it
back gives the number modulo what the width can hold, and every byte string of a width is the
written form of the number it reads as.
-/

namespace SchemaWire
namespace BigEndian

/-- The last `width` bytes of a number, most significant first. -/
def ofNat : (width : Nat) → Nat → List UInt8
  | 0, _ => []
  | width + 1, value => UInt8.ofNat (value / Nat.pow 256 width) :: ofNat width value

/-- The number that bytes spell, most significant first. -/
def toNat (bytes : List UInt8) : Nat :=
  bytes.foldl (fun value byte => value * 256 + byte.toNat) 0

@[simp]
theorem length_ofNat (width value : Nat) : (ofNat width value).length = width := by
  induction width with
  | zero => rfl
  | succ width ih => simp [ofNat, ih]

theorem foldl_eq (start : Nat) (bytes : List UInt8) :
    bytes.foldl (fun value byte => value * 256 + byte.toNat) start =
      start * Nat.pow 256 bytes.length + toNat bytes := by
  rw [Nat.pow_eq]
  induction bytes generalizing start with
  | nil => simp [toNat]
  | cons byte bytes ih =>
      simp only [List.foldl_cons, List.length_cons, toNat]
      rw [ih, ih (0 * 256 + byte.toNat), Nat.pow_succ, Nat.zero_mul, Nat.zero_add,
        Nat.add_mul, Nat.mul_assoc, Nat.mul_comm 256, Nat.add_assoc]

theorem toNat_cons (byte : UInt8) (bytes : List UInt8) :
    toNat (byte :: bytes) = byte.toNat * Nat.pow 256 bytes.length + toNat bytes := by
  simp only [toNat, List.foldl_cons, Nat.zero_mul, Nat.zero_add]
  exact foldl_eq byte.toNat bytes

theorem toNat_lt (bytes : List UInt8) : toNat bytes < Nat.pow 256 bytes.length := by
  rw [Nat.pow_eq]
  induction bytes with
  | nil => simp [toNat]
  | cons byte bytes ih =>
      rw [toNat_cons, Nat.pow_eq, List.length_cons, Nat.pow_succ]
      have bound : byte.toNat < 256 := byte.toNat_lt
      have step : (byte.toNat + 1) * 256 ^ bytes.length ≤ 256 * 256 ^ bytes.length :=
        Nat.mul_le_mul_right _ bound
      rw [Nat.add_mul, Nat.one_mul] at step
      rw [Nat.mul_comm (256 ^ bytes.length)]
      omega

theorem toNat_ofNat (width value : Nat) :
    toNat (ofNat width value) = value % Nat.pow 256 width := by
  rw [Nat.pow_eq]
  induction width with
  | zero => simp [ofNat, toNat, Nat.mod_one]
  | succ width ih =>
      rw [ofNat, toNat_cons, length_ofNat, ih, Nat.pow_eq, Nat.pow_succ, Nat.mod_mul, Nat.add_comm]
      congr 1
      rw [Nat.mul_comm]
      simp

theorem ofNat_toNat (bytes : List UInt8) : ofNat bytes.length (toNat bytes) = bytes := by
  suffices shifted : ∀ high, ofNat bytes.length (high * 256 ^ bytes.length + toNat bytes) = bytes by
    simpa using shifted 0
  induction bytes with
  | nil => intro high; rfl
  | cons byte bytes ih =>
      intro high
      have positive : 0 < 256 ^ bytes.length := Nat.pow_pos (by decide)
      have short : toNat bytes < 256 ^ bytes.length := toNat_lt bytes
      rw [List.length_cons, ofNat, toNat_cons, Nat.pow_eq, ← Nat.add_assoc, Nat.pow_succ,
        Nat.mul_comm (256 ^ bytes.length), ← Nat.mul_assoc, ← Nat.add_mul]
      congr 1
      · rw [Nat.mul_comm, Nat.mul_add_div positive, Nat.div_eq_of_lt short]
        apply UInt8.toNat_inj.1
        simp
      · exact ih (high * 256 + byte.toNat)

/-- The number below `2 ^ 32` that a word with sign stands for, or that number less `2 ^ 32`. -/
theorem toInt_toInt32_ofNat (value : Nat) (h : value < 4294967296) :
    (UInt32.ofNat value).toInt32.toInt =
      if value < 2147483648 then (value : Int) else value - 4294967296 := by
  have bits : (UInt32.ofNat value).toInt32.toInt = (UInt32.ofNat value).toBitVec.toInt := rfl
  rw [bits, BitVec.toInt_eq_toNat_cond]
  simp only [UInt32.toNat_toBitVec, UInt32.toNat_ofNat']
  rw [Nat.mod_eq_of_lt h]
  split <;> split <;> omega

end BigEndian
end SchemaWire
