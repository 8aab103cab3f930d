import SchemaWire.Text.Utf8
import Mathlib.Tactic.Common

/-!
# UTF-8 in both directions

Every text survives being written as bytes and read back, and bytes that hold a text are the ones
that the text is written as.  Both follow from one description of the bytes of a character.
-/

namespace SchemaWire
namespace Utf8

theorem toNat_range (char : Char) :
    char.toNat < 0xD800 ∨ 0xDFFF < char.toNat ∧ char.toNat < 0x110000 :=
  char.valid

theorem toNat_ofNat {code : Nat} (range : code < 0xD800 ∨ 0xDFFF < code ∧ code < 0x110000) :
    (Char.ofNat code).toNat = code := by
  rw [Char.ofNat, dif_pos (show code.isValidChar from range)]
  rfl

theorem isTail_iff {byte : UInt8} :
    isTail byte = true ↔ 0x80 ≤ byte.toNat ∧ byte.toNat ≤ 0xBF := by
  simp [isTail, UInt8.le_iff_toNat_le]

theorem followsThree_iff {first second : UInt8} :
    followsThree first second = true ↔
      (0x80 ≤ second.toNat ∧ second.toNat ≤ 0xBF) ∧ (first.toNat = 0xE0 → 0xA0 ≤ second.toNat) ∧
        (first.toNat = 0xED → second.toNat ≤ 0x9F) := by
  simp only [followsThree, ← UInt8.toNat_inj, isTail]
  split
  case isTrue => simp [UInt8.le_iff_toNat_le] at *; omega
  case isFalse => split <;> simp [UInt8.le_iff_toNat_le] at * <;> omega

theorem followsFour_iff {first second : UInt8} :
    followsFour first second = true ↔
      (0x80 ≤ second.toNat ∧ second.toNat ≤ 0xBF) ∧ (first.toNat = 0xF0 → 0x90 ≤ second.toNat) ∧
        (first.toNat = 0xF4 → second.toNat ≤ 0x8F) := by
  simp only [followsFour, ← UInt8.toNat_inj, isTail]
  split
  case isTrue => simp [UInt8.le_iff_toNat_le] at *; omega
  case isFalse => split <;> simp [UInt8.le_iff_toNat_le] at * <;> omega

/-- The bytes of one character, and the number of the character. -/
inductive Spelling : List UInt8 → Nat → Prop where
  /-- Numbers below 128 are bytes. -/
  | one {first : UInt8} (lead : first.toNat < 0x80) : Spelling [first] first.toNat
  /-- Eleven bits in two bytes. -/
  | two {first second : UInt8} (lead : 0xC2 ≤ first.toNat ∧ first.toNat ≤ 0xDF)
      (tail : isTail second = true) :
      Spelling [first, second] (first.toNat % 32 * 64 + low second)
  /-- Sixteen bits in three bytes. -/
  | three {first second third : UInt8} (lead : 0xE0 ≤ first.toNat ∧ first.toNat ≤ 0xEF)
      (follows : followsThree first second = true) (tail : isTail third = true) :
      Spelling [first, second, third]
        (first.toNat % 16 * 4096 + low second * 64 + low third)
  /-- Twenty-one bits in four bytes. -/
  | four {first second third fourth : UInt8} (lead : 0xF0 ≤ first.toNat ∧ first.toNat ≤ 0xF4)
      (follows : followsFour first second = true) (tail : isTail third = true)
      (last : isTail fourth = true) :
      Spelling [first, second, third, fourth]
        (first.toNat % 8 * 262144 + low second * 4096 + low third * 64 + low fourth)

/-- A character is spelled by the bytes that it is written as. -/
theorem spelling_encodeChar (char : Char) : Spelling (encodeChar char) char.toNat := by
  have range := toNat_range char
  rw [encodeChar]
  generalize char.toNat = code at range
  split
  case isTrue small =>
    have value : (UInt8.ofNat code).toNat = code := by
      rw [UInt8.toNat_ofNat']
      omega
    have spelled : Spelling [UInt8.ofNat code] _ := .one (by omega)
    rwa [value] at spelled
  case isFalse =>
    split
    case isTrue =>
      have spelled : Spelling
          [UInt8.ofNat (0xC0 + code / 64), UInt8.ofNat (0x80 + code % 64)] _ := .two
        (by rw [UInt8.toNat_ofNat']; omega)
        (by rw [isTail_iff, UInt8.toNat_ofNat']; omega)
      convert spelled using 1
      simp only [low, UInt8.toNat_ofNat']
      omega
    case isFalse =>
      split
      case isTrue =>
        have spelled : Spelling
            [UInt8.ofNat (0xE0 + code / 4096), UInt8.ofNat (0x80 + code / 64 % 64),
              UInt8.ofNat (0x80 + code % 64)] _ := .three
          (by rw [UInt8.toNat_ofNat']; omega)
          (by rw [followsThree_iff, UInt8.toNat_ofNat', UInt8.toNat_ofNat']; omega)
          (by rw [isTail_iff, UInt8.toNat_ofNat']; omega)
        convert spelled using 1
        simp only [low, UInt8.toNat_ofNat']
        omega
      case isFalse =>
        have spelled : Spelling
            [UInt8.ofNat (0xF0 + code / 262144), UInt8.ofNat (0x80 + code / 4096 % 64),
              UInt8.ofNat (0x80 + code / 64 % 64), UInt8.ofNat (0x80 + code % 64)] _ := .four
          (by rw [UInt8.toNat_ofNat']; omega)
          (by rw [followsFour_iff, UInt8.toNat_ofNat', UInt8.toNat_ofNat']; omega)
          (by rw [isTail_iff, UInt8.toNat_ofNat']; omega)
          (by rw [isTail_iff, UInt8.toNat_ofNat']; omega)
        convert spelled using 1
        simp only [low, UInt8.toNat_ofNat']
        omega

/-- A character has no other spelling than the bytes that it is written as. -/
theorem Spelling.encodeChar_ofNat {bytes : List UInt8} {code : Nat}
    (spelled : Spelling bytes code) : encodeChar (Char.ofNat code) = bytes := by
  cases spelled with
  | @one first lead =>
      rw [encodeChar, toNat_ofNat (by omega), if_pos lead, UInt8.ofNat_toNat]
  | @two first second lead tail =>
      rw [isTail_iff] at tail
      simp only [low]
      rw [encodeChar, toNat_ofNat (by omega)]
      rw [if_neg (by omega), if_pos (by omega)]
      simp only [List.cons.injEq, ← UInt8.toNat_inj, UInt8.toNat_ofNat', and_true]
      omega
  | @three first second third lead follows tail =>
      rw [followsThree_iff] at follows
      rw [isTail_iff] at tail
      simp only [low]
      rw [encodeChar, toNat_ofNat (by omega)]
      rw [if_neg (by omega), if_neg (by omega), if_pos (by omega)]
      simp only [List.cons.injEq, ← UInt8.toNat_inj, UInt8.toNat_ofNat', and_true]
      omega
  | @four first second third fourth lead follows tail last =>
      rw [followsFour_iff] at follows
      rw [isTail_iff] at tail last
      simp only [low]
      rw [encodeChar, toNat_ofNat (by omega)]
      rw [if_neg (by omega), if_neg (by omega), if_neg (by omega)]
      simp only [List.cons.injEq, ← UInt8.toNat_inj, UInt8.toNat_ofNat', and_true]
      omega

/-- The decoder takes the spelling of a character as a whole. -/
theorem Spelling.decodeFrom {bytes : List UInt8} {code : Nat} (spelled : Spelling bytes code)
    (index : Nat) (done : List Char) (rest : List UInt8) :
    decodeFrom index done (bytes ++ rest) =
      decodeFrom (index + bytes.length) (Char.ofNat code :: done) rest := by
  cases spelled with
  | one lead =>
      rw [List.cons_append, decodeFrom.eq_def]
      simp [UInt8.lt_iff_toNat_lt, lead]
  | @two first second lead tail =>
      have notOne : ¬ first.toNat < 128 := by omega
      rw [List.cons_append, decodeFrom.eq_def]
      simp [UInt8.lt_iff_toNat_lt, UInt8.le_iff_toNat_le, notOne, lead, tail]
  | @three first second third lead follows tail =>
      have notOne : ¬ first.toNat < 128 := by omega
      have notTwo : ¬ first.toNat ≤ 223 := by omega
      rw [List.cons_append, decodeFrom.eq_def]
      simp [UInt8.lt_iff_toNat_lt, UInt8.le_iff_toNat_le, notOne, notTwo, lead, follows, tail]
  | @four first second third fourth lead follows tail last =>
      have notOne : ¬ first.toNat < 128 := by omega
      have notTwo : ¬ first.toNat ≤ 223 := by omega
      have notThree : ¬ first.toNat ≤ 239 := by omega
      rw [List.cons_append, decodeFrom.eq_def]
      simp [UInt8.lt_iff_toNat_lt, UInt8.le_iff_toNat_le, notOne, notTwo, notThree, lead, follows,
        tail, last]

theorem decodeFrom_flatMap (index : Nat) (done chars : List Char) :
    decodeFrom index done (chars.flatMap encodeChar) = .ok (done.reverse ++ chars) := by
  induction chars generalizing index done with
  | nil => simp [decodeFrom]
  | cons char chars ih =>
      rw [List.flatMap_cons, (spelling_encodeChar char).decodeFrom, Char.ofNat_toNat, ih]
      simp

theorem flatMap_of_decodeFrom {index : Nat} {done chars : List Char} {bytes : List UInt8}
    (decoded : decodeFrom index done bytes = .ok chars) :
    ∃ taken, chars = done.reverse ++ taken ∧ bytes = taken.flatMap encodeChar := by
  -- Every branch that goes on takes the spelling of one character off the front.
  have extend {first : List UInt8} {code : Nat} {done : List Char} {rest : List UInt8}
      (spelled : Spelling first code)
      (ih : ∃ taken, chars = (Char.ofNat code :: done).reverse ++ taken ∧
        rest = taken.flatMap encodeChar) :
      ∃ taken, chars = done.reverse ++ taken ∧ first ++ rest = taken.flatMap encodeChar := by
    obtain ⟨taken, rfl, rfl⟩ := ih
    refine ⟨Char.ofNat code :: taken, by simp, ?_⟩
    rw [List.flatMap_cons, spelled.encodeChar_ofNat]
  fun_induction decodeFrom index done bytes
  case case1 =>
    obtain rfl : _ = chars := by simpa using decoded
    exact ⟨[], by simp⟩
  case case2 first rest lead ih =>
    exact extend (.one (UInt8.lt_iff_toNat_lt.1 lead)) (ih decoded)
  case case4 first _ lead second rest tail ih =>
    simp only [Bool.and_eq_true, decide_eq_true_eq, UInt8.le_iff_toNat_le] at lead
    exact extend (.two lead tail) (ih decoded)
  case case8 first _ _ lead second follows third rest tail ih =>
    simp only [Bool.and_eq_true, decide_eq_true_eq, UInt8.le_iff_toNat_le] at lead
    exact extend (.three lead follows tail) (ih decoded)
  case case14 first _ _ _ lead second follows third tail fourth rest last ih =>
    simp only [Bool.and_eq_true, decide_eq_true_eq, UInt8.le_iff_toNat_le] at lead
    exact extend (.four lead follows tail last) (ih decoded)
  all_goals simp at decoded

/-- A text is read back from its bytes. -/
@[simp]
theorem decode_encode (text : String) : decode (encode text) = .ok text := by
  simp [decode, encode, decodeFrom_flatMap]

/-- Bytes that hold a text are the bytes of the text. -/
theorem eq_encode_of_decode {bytes : List UInt8} {text : String}
    (decoded : decode bytes = .ok text) : bytes = encode text := by
  rw [decode] at decoded
  split at decoded
  case h_2 => simp at decoded
  case h_1 chars taken =>
    obtain ⟨_, rfl, rfl⟩ := flatMap_of_decodeFrom taken
    obtain rfl := Except.ok.inj decoded
    simp [encode]

theorem decode_eq_ok_iff {bytes : List UInt8} {text : String} :
    decode bytes = .ok text ↔ bytes = encode text := by
  constructor
  · exact eq_encode_of_decode
  · rintro rfl
    exact decode_encode text

theorem encode_append (front back : String) :
    encode (front ++ back) = encode front ++ encode back := by
  rw [encode, String.toList_append, List.flatMap_append, encode, encode]

end Utf8
end SchemaWire
