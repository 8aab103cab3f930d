import Mathlib.Tactic.Common
import SchemaWire.Proofs.Fallible
import SchemaWire.Text.Base64

/-!
# Base64 in both directions

Every byte string survives being written in base64 and read back, and the decoder accepts nothing
but what the encoder writes.
-/

namespace SchemaWire
namespace Base64

open Fallible

theorem value?_symbol {value : Nat} (small : value < 64) : value? (symbol value) = some value := by
  have every : ∀ value < 64, value? (symbol value) = some value := by decide +kernel
  exact every value small

theorem symbol_ne_pad {value : Nat} (small : value < 64) : symbol value ≠ pad := by
  have every : ∀ value < 64, symbol value ≠ pad := by decide +kernel
  exact every value small

/-- A symbol is the one of its number, which has six bits. -/
theorem eq_symbol_of_value? {byte : UInt8} {value : Nat} (known : value? byte = some value) :
    byte = symbol value ∧ value < 64 := by
  have every : ∀ number < 256, ∀ value ∈ value? (UInt8.ofNat number),
      UInt8.ofNat number = symbol value ∧ value < 64 := by decide +kernel
  simpa using every byte.toNat byte.toNat_lt value (by simpa using known)

theorem valueAt_symbol {value : Nat} (offset : Nat) (small : value < 64) :
    valueAt offset (symbol value) = .ok value := by
  rw [valueAt, value?_symbol small]

theorem eq_symbol_of_valueAt {offset value : Nat} {byte : UInt8}
    (known : valueAt offset byte = .ok value) : byte = symbol value ∧ value < 64 := by
  rw [valueAt] at known
  split at known
  case h_2 => simp at known
  case h_1 number found =>
    obtain rfl := Except.ok.inj known
    exact eq_symbol_of_value? found

/-! ## The last group -/

theorem groupSymbols_symbol {offset place value : Nat} {rest : List UInt8} (small : value < 64) :
    groupSymbols offset place (symbol value :: rest) =
      (groupSymbols offset (place + 1) rest).map ((symbol value, value) :: ·) := by
  rw [groupSymbols, if_neg (symbol_ne_pad small), valueAt_symbol _ small]
  cases groupSymbols offset (place + 1) rest <;> rfl

/-- Padding signs from the third place on end a group. -/
theorem groupSymbols_pad {offset place : Nat} (count : Nat) (late : 2 ≤ place) :
    groupSymbols offset place (List.replicate count pad) = .ok [] := by
  cases count with
  | zero => rfl
  | succ count =>
      rw [List.replicate_succ, groupSymbols, if_pos rfl, if_neg (by omega), if_pos (by simp)]

/-- A group is its symbols, each with its number, and padding signs after them. -/
theorem eq_of_groupSymbols {offset place : Nat} {group : List UInt8}
    {symbols : List (UInt8 × Nat)} (known : groupSymbols offset place group = .ok symbols) :
    (∀ entry ∈ symbols, entry.1 = symbol entry.2 ∧ entry.2 < 64) ∧
      ∃ count, group = symbols.map Prod.fst ++ List.replicate count pad := by
  induction group generalizing place symbols with
  | nil =>
      obtain rfl := Except.ok.inj known
      exact ⟨by simp, 0, by simp⟩
  | cons byte rest ih =>
      rw [groupSymbols] at known
      split at known
      case isTrue padding =>
        split at known
        case isTrue => simp at known
        case isFalse =>
          split at known
          case isFalse => simp at known
          case isTrue all =>
            obtain rfl := Except.ok.inj known
            refine ⟨by simp, rest.length + 1, ?_⟩
            rw [List.map_nil, List.nil_append, List.eq_replicate_iff]
            refine ⟨rfl, ?_⟩
            intro other member
            rcases List.mem_cons.1 member with rfl | member
            · exact padding
            · simpa using List.all_eq_true.1 all other member
      case isFalse =>
        obtain ⟨number, value, known⟩ := bind_eq_ok_iff.1 known
        obtain ⟨tail, others, known⟩ := bind_eq_ok_iff.1 known
        obtain rfl := Except.ok.inj known
        obtain ⟨each, count, rfl⟩ := ih others
        refine ⟨?_, count, by simp⟩
        intro entry member
        rcases List.mem_cons.1 member with rfl | member
        · exact eq_symbol_of_valueAt value
        · exact each entry member

theorem lastGroup_one (offset : Nat) (a : UInt8) : lastGroup offset (encode [a]) = .ok [a] := by
  have small := a.toNat_lt
  have pads : groupSymbols offset 2 [pad, pad] = .ok [] := groupSymbols_pad 2 (by omega)
  rw [encode, lastGroup, groupSymbols_symbol (by omega), groupSymbols_symbol (by omega), pads]
  simp only [Except.map, bind, Except.bind, List.length_cons, List.length_nil]
  rw [if_neg (by omega), if_neg (by omega)]
  simp only [Except.ok.injEq, List.cons.injEq, ← UInt8.toNat_inj, UInt8.toNat_ofNat', and_true]
  omega

theorem lastGroup_two (offset : Nat) (a b : UInt8) :
    lastGroup offset (encode [a, b]) = .ok [a, b] := by
  have smallA := a.toNat_lt
  have smallB := b.toNat_lt
  have pads : groupSymbols offset 3 [pad] = .ok [] := groupSymbols_pad 1 (by omega)
  rw [encode, lastGroup, groupSymbols_symbol (by omega), groupSymbols_symbol (by omega),
    groupSymbols_symbol (by omega), pads]
  simp only [Except.map, bind, Except.bind, List.length_cons, List.length_nil]
  rw [if_neg (by omega), if_neg (by omega)]
  simp only [Except.ok.injEq, List.cons.injEq, ← UInt8.toNat_inj, UInt8.toNat_ofNat', and_true]
  omega

theorem lastGroup_three (offset : Nat) (a b c : UInt8) :
    lastGroup offset (encode [a, b, c]) = .ok [a, b, c] := by
  have smallA := a.toNat_lt
  have smallB := b.toNat_lt
  have smallC := c.toNat_lt
  rw [encode, encode, lastGroup, groupSymbols_symbol (by omega), groupSymbols_symbol (by omega),
    groupSymbols_symbol (by omega), groupSymbols_symbol (by omega), groupSymbols]
  simp only [Except.map, bind, Except.bind]
  simp only [Except.ok.injEq, List.cons.injEq, ← UInt8.toNat_inj, UInt8.toNat_ofNat', and_true]
  omega

/-- What a last group of at most four signs stands for is written as that group. -/
theorem eq_encode_of_lastGroup {offset : Nat} {group bytes : List UInt8}
    (short : group.length ≤ 4) (known : lastGroup offset group = .ok bytes) :
    group = encode bytes := by
  rw [lastGroup] at known
  obtain ⟨symbols, read, known⟩ := bind_eq_ok_iff.1 known
  obtain ⟨each, count, rfl⟩ := eq_of_groupSymbols read
  simp only [List.length_append, List.length_map, List.length_replicate] at known short
  match symbols, each, known with
  | [(first, a), (last, b)], each, known =>
      simp only [List.forall_mem_cons] at each
      obtain ⟨⟨rfl, smallA⟩, ⟨rfl, smallB⟩, -⟩ := each
      simp only [List.length_cons, List.length_nil] at known short
      split at known
      case isTrue => simp at known
      case isFalse whole =>
        split at known
        case isTrue => simp at known
        case isFalse spare =>
          obtain rfl := Except.ok.inj known
          obtain rfl : count = 2 := by omega
          simp only [encode, UInt8.toNat_ofNat', List.map_cons, List.map_nil, List.cons_append,
            List.nil_append, List.replicate, List.cons.injEq, and_true]
          refine ⟨congrArg symbol ?_, congrArg symbol ?_⟩ <;> omega
  | [(first, a), (second, b), (last, c)], each, known =>
      simp only [List.forall_mem_cons] at each
      obtain ⟨⟨rfl, smallA⟩, ⟨rfl, smallB⟩, ⟨rfl, smallC⟩, -⟩ := each
      simp only [List.length_cons, List.length_nil] at known short
      split at known
      case isTrue => simp at known
      case isFalse whole =>
        split at known
        case isTrue => simp at known
        case isFalse spare =>
          obtain rfl := Except.ok.inj known
          obtain rfl : count = 1 := by omega
          simp only [encode, UInt8.toNat_ofNat', List.map_cons, List.map_nil, List.cons_append,
            List.nil_append, List.replicate, List.cons.injEq, and_true]
          refine ⟨congrArg symbol ?_, congrArg symbol ?_, congrArg symbol ?_⟩ <;> omega
  | [(first, a), (second, b), (third, c), (last, d)], each, known =>
      simp only [List.forall_mem_cons] at each
      obtain ⟨⟨rfl, smallA⟩, ⟨rfl, smallB⟩, ⟨rfl, smallC⟩, ⟨rfl, smallD⟩, -⟩ := each
      simp only [List.length_cons, List.length_nil] at short
      obtain rfl := Except.ok.inj known
      obtain rfl : count = 0 := by omega
      simp only [encode, UInt8.toNat_ofNat', List.map_cons, List.map_nil, List.cons_append,
        List.nil_append, List.replicate, List.cons.injEq, and_true]
      refine ⟨congrArg symbol ?_, congrArg symbol ?_, congrArg symbol ?_, congrArg symbol ?_⟩ <;>
        omega
  | _ :: _ :: _ :: _ :: _ :: _, _, _ =>
      simp only [List.length_cons] at short
      omega

/-! ## Whole texts -/

/-- Three bytes become four symbols, and so does what is left of them. -/
theorem length_encode (bytes : List UInt8) :
    (encode bytes).length = (bytes.length + 2) / 3 * 4 := by
  fun_induction encode bytes with
  | case4 a b c rest group ih =>
      simp only [List.length_cons]
      omega
  | _ => simp

/-- What a byte string is written with: symbols, and padding signs. -/
theorem pad_or_symbol_of_mem_encode {bytes : List UInt8} {byte : UInt8}
    (member : byte ∈ encode bytes) : byte = pad ∨ ∃ value, byte = symbol value := by
  fun_induction encode bytes with
  | case1 => simp at member
  | case2 a group =>
      simp only [List.mem_cons, List.not_mem_nil, or_false] at member
      rcases member with rfl | rfl | rfl | rfl <;> simp
  | case3 a b group =>
      simp only [List.mem_cons, List.not_mem_nil, or_false] at member
      rcases member with rfl | rfl | rfl | rfl <;> simp
  | case4 a b c rest group ih =>
      simp only [List.mem_cons] at member
      rcases member with rfl | rfl | rfl | rfl | later
      case inr.inr.inr.inr => exact ih later
      all_goals simp

theorem lt_of_mem_encode {bytes : List UInt8} {byte : UInt8} (member : byte ∈ encode bytes) :
    byte.toNat < 0x80 := by
  rcases pad_or_symbol_of_mem_encode member with rfl | ⟨value, rfl⟩
  · decide
  · unfold symbol
    split_ifs <;> simp <;> omega

/-- No symbol is a comma, so a byte string in base64 can stand between commas. -/
theorem comma_notMem_encode (bytes : List UInt8) : (44 : UInt8) ∉ encode bytes := by
  intro member
  rcases pad_or_symbol_of_mem_encode member with same | ⟨value, same⟩
  · exact absurd same (by decide)
  · have code := congrArg UInt8.toNat same
    unfold symbol at code
    split_ifs at code <;> simp at code <;> omega

theorem decodeFrom_encode (offset : Nat) (bytes : List UInt8) :
    decodeFrom offset (encode bytes) = .ok bytes := by
  induction bytes using encode.induct generalizing offset with
  | case1 => rfl
  | case2 a => exact lastGroup_one offset a
  | case3 a b => exact lastGroup_two offset a b
  | case4 a b c rest ih =>
      cases others : encode rest with
      | nil =>
          obtain rfl : rest = [] := by simpa [others, decodeFrom] using (ih offset).symm
          exact lastGroup_three offset a b c
      | cons next tail =>
          have smallA := a.toNat_lt
          have smallB := b.toNat_lt
          have smallC := c.toNat_lt
          rw [encode, others, decodeFrom, valueAt_symbol _ (by omega), valueAt_symbol _ (by omega),
            valueAt_symbol _ (by omega), valueAt_symbol _ (by omega), ← others, ih]
          simp only [bind, Except.bind, pure, Except.pure, Except.ok.injEq, List.cons.injEq,
            ← UInt8.toNat_inj, UInt8.toNat_ofNat', and_true]
          omega

theorem eq_encode_of_decodeFrom {offset : Nat} {symbols bytes : List UInt8}
    (known : decodeFrom offset symbols = .ok bytes) : symbols = encode bytes := by
  fun_induction decodeFrom offset symbols generalizing bytes with
  | case1 =>
      obtain rfl := Except.ok.inj known
      rfl
  | case2 offset a b c d next rest ih =>
      obtain ⟨value₁, known₁, known⟩ := bind_eq_ok_iff.1 known
      obtain ⟨value₂, known₂, known⟩ := bind_eq_ok_iff.1 known
      obtain ⟨value₃, known₃, known⟩ := bind_eq_ok_iff.1 known
      obtain ⟨value₄, known₄, known⟩ := bind_eq_ok_iff.1 known
      obtain ⟨tail, others, known⟩ := bind_eq_ok_iff.1 known
      obtain rfl := Except.ok.inj known
      obtain ⟨rfl, small₁⟩ := eq_symbol_of_valueAt known₁
      obtain ⟨rfl, small₂⟩ := eq_symbol_of_valueAt known₂
      obtain ⟨rfl, small₃⟩ := eq_symbol_of_valueAt known₃
      obtain ⟨rfl, small₄⟩ := eq_symbol_of_valueAt known₄
      rw [ih others, encode]
      simp only [UInt8.toNat_ofNat', List.cons.injEq, and_true]
      refine ⟨congrArg symbol ?_, congrArg symbol ?_, congrArg symbol ?_, congrArg symbol ?_⟩ <;>
        omega
  | case3 offset group nonempty short =>
      refine eq_encode_of_lastGroup ?_ known
      match group, short with
      | [_], _ | [_, _], _ | [_, _, _], _ | [_, _, _, _], _ => simp
      | a :: b :: c :: d :: next :: rest, short => exact (short a b c d next rest rfl).elim

/-- A byte string is read back from its base64. -/
@[simp]
theorem decode_encode (bytes : List UInt8) : decode (encode bytes) = .ok bytes := by
  have whole : (encode bytes).length % 4 = 0 := by
    rw [length_encode]
    omega
  have read := decodeFrom_encode 0 bytes
  rw [decode]
  split
  case h_1 none =>
    rw [List.getLast?_eq_none_iff] at none
    rw [none] at read
    exact read
  case h_2 => simp [whole, read]

/-- Only what the encoder writes is read. -/
theorem eq_encode_of_decode {symbols bytes : List UInt8} (known : decode symbols = .ok bytes) :
    symbols = encode bytes := by
  rw [decode] at known
  split at known
  case h_1 none =>
    rw [List.getLast?_eq_none_iff] at none
    obtain rfl := Except.ok.inj known
    rw [none, encode]
  case h_2 =>
    split at known
    case isTrue => simp at known
    case isFalse => exact eq_encode_of_decodeFrom known

theorem decode_eq_ok_iff {symbols bytes : List UInt8} :
    decode symbols = .ok bytes ↔ symbols = encode bytes := by
  constructor
  · exact eq_encode_of_decode
  · rintro rfl
    exact decode_encode bytes

end Base64
end SchemaWire
