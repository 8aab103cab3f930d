import SchemaWire.Proofs.Codec.Layout
import SchemaWire.Proofs.Wire.Shortage
import Mathlib.Algebra.BigOperators.Ring.List

/-!
# Values and the bytes that bear them

A decoded value has four bytes for each of its nodes but the outermost, absent ones among them.
What stands before the elements of a set, an array or a tuple pays for the value itself, and the
length or the envelope of an element for what the element has beyond its own bytes.  So a set or an
array that declares more elements than there are fours of bytes cannot be decoded.
-/

namespace SchemaWire

open Reads

/-! ## Nodes -/

namespace Value

mutual

/-- The number of nodes of a value: the value itself, and those of all that it holds. -/
def nodes : Value → Nat
  | .set slots | .tuple slots => 1 + slotsNodes slots
  | .array elements => 1 + elementsNodes elements
  | _ => 1

/-- The number of nodes of elements. -/
def elementsNodes : List Value → Nat
  | [] => 0
  | element :: elements => nodes element + elementsNodes elements

/-- The number of nodes of slots, of which an absent one is a node too. -/
def slotsNodes : List (Option Value) → Nat
  | [] => 0
  | none :: slots => 1 + slotsNodes slots
  | some value :: slots => nodes value + slotsNodes slots

end

/-- The number of nodes of a slot. -/
def slotNodes : Option Value → Nat
  | none => 1
  | some value => value.nodes

theorem elementsNodes_eq (elements : List Value) :
    elementsNodes elements = (elements.map nodes).sum := by
  induction elements with
  | nil => rfl
  | cons element elements ih => rw [elementsNodes, ih, List.map_cons, List.sum_cons]

theorem slotsNodes_cons (slot : Option Value) (slots : List (Option Value)) :
    slotsNodes (slot :: slots) = slotNodes slot + slotsNodes slots := by
  cases slot <;> rfl

theorem slotsNodes_eq (slots : List (Option Value)) :
    slotsNodes slots = (slots.map slotNodes).sum := by
  induction slots with
  | nil => rfl
  | cons slot slots ih => rw [slotsNodes_cons, ih, List.map_cons, List.sum_cons]

theorem nodes_pos (value : Value) : 1 ≤ value.nodes := by
  cases value <;> simp [nodes]

theorem slotNodes_pos (slot : Option Value) : 1 ≤ slotNodes slot := by
  cases slot with
  | none => exact Nat.le_refl 1
  | some value => exact value.nodes_pos

/-- Whatever bears the nodes of a slot has four bytes. -/
theorem four_le_of_slotNodes {slot : Option Value} {length : Nat}
    (borne : 4 * slotNodes slot ≤ length) : 4 ≤ length := by
  have positive := slotNodes_pos slot
  omega

/-- Only sets, arrays and tuples hold anything. -/
theorem nodes_eq_one {value : Value}
    (plain : value.kind ≠ .set ∧ value.kind ≠ .array ∧ value.kind ≠ .tuple) : value.nodes = 1 := by
  cases value <;> simp_all [nodes, kind]

end Value

/-! ## Frugal codecs -/

/-- What a codec decodes has four bytes for each of its nodes but the outermost. -/
def Codec.Frugal (codec : Codec) : Prop :=
  ∀ ⦃bytes value⦄, codec.decode (some bytes) = .ok (some value) →
    4 * value.nodes ≤ 4 + bytes.length

theorem Codec.known_of_decode {codec : Codec} {known : List UInt8 → Value → Prop}
    (given : Gives codec.read known) {bytes : List UInt8} {result : Option Value}
    (decoded : codec.decode (some bytes) = .ok result) :
    ∃ value, result = some value ∧ known bytes value := by
  rw [decode] at decoded
  split at decoded
  case h_2 => simp at decoded
  case h_1 value done => exact ⟨value, (Except.ok.inj decoded).symm, given.of_run_whole done⟩

theorem length_int32Bytes (number : Int32) : (int32Bytes number).length = 4 :=
  BigEndian.length_ofNat _ _

namespace Codec

variable {codec element : Codec} {codecs : List Codec} {bytes : List UInt8}

theorem frugal_of_plain (plain : ∀ value, Conforms codec value → value.nodes = 1) :
    codec.Frugal := by
  intro bytes value decoded
  obtain ⟨_, ⟨⟩, conforms⟩ := known_of_decode codec.conforms_of_read decoded
  rw [plain value conforms]
  omega

/-- The length of an item pays for its outermost node. -/
theorem Frugal.item {absent : Int → Prop} {slot : Option Value} (frugal : codec.Frugal)
    (item : codec.Item absent bytes slot) : 4 * Value.slotNodes slot ≤ bytes.length := by
  obtain ⟨payload, delimited, decoded⟩ := item
  cases delimited with
  | @absent length told =>
      obtain rfl := Except.ok.inj decoded
      rw [length_int32Bytes, Value.slotNodes]
  | @present length payload counted told =>
      rw [List.length_append, length_int32Bytes]
      cases slot with
      | none => exact Nat.le_add_right 4 _
      | some value => exact frugal decoded

theorem Frugal.array {elements : List Value} (frugal : element.Frugal)
    (laid : ArrayLayout element bytes elements) :
    4 * (Value.array elements).nodes ≤ 4 + bytes.length := by
  cases laid with
  | empty eight => simp [Value.nodes, Value.elementsNodes]
  | @filled reserved bounds chunks _ eight bounded each =>
      have borne := sum_le_length_flatten (each.imp fun _ _ item => frugal.item item)
      simp only [Value.slotNodes, List.sum_map_mul_left] at borne
      rw [Value.nodes, Value.elementsNodes_eq]
      simp only [List.length_append, length_int32Bytes]
      omega

/-- Either the length of an item of a set pays for its outermost node, or its envelope does. -/
theorem Frugal.setItem {slot : Option Value} (frugal : element.Frugal)
    (laid : SetItem element bytes slot) : 4 * Value.slotNodes slot ≤ bytes.length := by
  cases laid with
  | plain _ item => exact frugal.item item
  | @enveloped type inner reserved flags content elements four flagged laid =>
      have taken := (exactly_array type inner).takes ⟨elements, rfl, laid⟩
      have decoded : (Codec.array type inner).decode (some content) =
          .ok (some (.array elements)) := by
        rw [decode, taken.takesAll.run_whole]
      have borne := frugal decoded
      simp only [Value.slotNodes, List.length_append, length_int32Bytes]
      omega

theorem Frugal.set {slots : List (Option Value)} (frugal : element.Frugal)
    (laid : SetLayout element bytes slots) :
    4 * (Value.set slots).nodes ≤ 4 + bytes.length := by
  cases laid with
  | bare => simp [Value.nodes, Value.slotsNodes]
  | empty eight => simp [Value.nodes, Value.slotsNodes]
  | @filled reserved bounds chunks _ eight bounded each =>
      have borne := sum_le_length_flatten (each.imp fun _ _ item => frugal.setItem item)
      rw [List.sum_map_mul_left] at borne
      rw [Value.nodes, Value.slotsNodes_eq]
      simp only [List.length_append, length_int32Bytes]
      omega

mutual

theorem frugal : (codec : Codec) → codec.Frugal
  | .scalar type kind => frugal_of_plain fun value conforms => by
      cases conforms with
      | scalar matching =>
          refine Value.nodes_eq_one ?_
          rw [matching]
          cases kind <;> decide
  | .timestamp type inner kind => frugal_of_plain fun value conforms => by
      cases conforms with
      | timestamp matching =>
          refine Value.nodes_eq_one ?_
          rw [matching]
          cases kind <;> decide
  | .enumeration type members => frugal_of_plain fun value conforms => by
      cases conforms
      rfl
  | .set type element => by
      intro bytes value decoded
      obtain ⟨_, ⟨⟩, slots, rfl, laid⟩ := known_of_decode (gives_set type element) decoded
      exact (frugal element).set laid
  | .array type element => by
      intro bytes value decoded
      have exact := exactly_array type element
      obtain ⟨_, ⟨⟩, elements, rfl, laid⟩ := known_of_decode exact.gives decoded
      exact (frugal element).array laid
  | .tuple type codecs => by
      intro bytes value decoded
      have exact := exactly_tuple type codecs
      obtain ⟨_, ⟨⟩, slots, rfl, laid⟩ := known_of_decode exact.gives decoded
      obtain @⟨count, rest, _, arity, laid⟩ := laid
      have borne := slots_borne codecs laid
      rw [Value.nodes, List.length_append]
      omega

/-- The four bytes before a slot are not even needed. -/
theorem slots_borne : (codecs : List Codec) → {bytes : List UInt8} →
    {slots : List (Option Value)} → SlotsLayout codecs bytes slots →
    4 * Value.slotsNodes slots ≤ bytes.length
  | [], _, _, laid => by
      cases laid
      exact Nat.le_refl 0
  | codec :: codecs, _, _, laid => by
      cases laid with
      | cons four item others =>
          have head := (frugal codec).item item
          have tail := slots_borne codecs others
          rw [Value.slotsNodes_cons]
          simp only [List.length_append]
          omega

end

/-! ## Numbers of elements -/

/-- The header of a set or an array with dimensions. -/
def header (dimensions : Int32) (reserved : List UInt8) (upper lower : Int32) : List UInt8 :=
  int32Bytes dimensions ++ (reserved ++ (int32Bytes upper ++ int32Bytes lower))

section Declared

variable {type : Uuid} {dimensions upper lower : Int32} {reserved rest : List UInt8}

theorem header_append :
    header dimensions reserved upper lower ++ rest =
      int32Bytes dimensions ++ (reserved ++ ((int32Bytes upper ++ int32Bytes lower) ++ rest)) := by
  simp only [header, List.append_assoc]

/-- A declared number of elements is read as it is, and calls for more bytes than are left. -/
theorem fails_readLength {next : Nat → Reads Value}
    (short : (rest.length : Int) < 4 * (upper.toInt - lower.toInt + 1))
    (failed : ∀ length behind, rest.length < length * 4 → Fails (next length) ⟨behind, rest⟩)
    (behind : List UInt8) :
    Fails (do let length ← readLength type; next length)
      ⟨behind, (int32Bytes upper ++ int32Bytes lower) ++ rest⟩ := by
  obtain ⟨length, counted⟩ := Int.eq_ofNat_of_zero_le (by omega : 0 ≤ upper.toInt - lower.toInt + 1)
  refine ((exactly_readLength type).takes (.mk counted)).fails (fun behind => ?_) behind
  exact failed length behind (by omega)

theorem fails_array_read (eight : reserved.length = 8) (dimensioned : dimensions ≠ 0)
    (short : (rest.length : Int) < 4 * (upper.toInt - lower.toInt + 1)) (behind : List UInt8) :
    Fails (Codec.array type element).read
      ⟨behind, header dimensions reserved upper lower ++ rest⟩ := by
  rw [header_append]
  refine (takes_int32 dimensions).fails (fun behind => ?_) behind
  refine (takes_skip eight).fails (fun behind => ?_) behind
  rw [if_neg dimensioned]
  split
  case isFalse => exact ⟨_, _, rfl⟩
  case isTrue =>
    refine fails_readLength short (fun length behind few => ?_) behind
    have items := exactly_numbered (exactly_readElement type element) length
    refine Fails.bind (items.gives.fails ?_)
    rintro _ elements ⟨chunks, rfl, rfl, each⟩
    have fours : List.Forall₂ (fun chunk (_ : Value) => 4 ≤ chunk.length) chunks elements := by
      refine each.imp ?_
      intro chunk value item
      exact Value.four_le_of_slotNodes (element.frugal.item item)
    calc rest.length
      _ < elements.length * 4 := few
      _ ≤ chunks.flatten.length := length_mul_le_length_flatten fours

theorem fails_set_read (eight : reserved.length = 8) (dimensioned : dimensions ≠ 0)
    (short : (rest.length : Int) < 4 * (upper.toInt - lower.toInt + 1)) (behind : List UInt8) :
    Fails (Codec.set type element).read
      ⟨behind, header dimensions reserved upper lower ++ rest⟩ := by
  rw [header_append]
  refine (takes_int32 dimensions).fails (fun behind => ?_) behind
  rw [if_neg dimensioned]
  split
  case isFalse => exact ⟨_, _, rfl⟩
  case isTrue =>
    refine (takes_skip eight).fails (fun behind => ?_) behind
    refine fails_readLength short (fun length behind few => ?_) behind
    refine (exactly_setItems type element length).gives.fails ?_
    rintro _ _ ⟨slots, ⟨chunks, rfl, rfl, each⟩, rfl⟩
    have fours : List.Forall₂ (fun chunk (_ : Option Value) => 4 ≤ chunk.length) chunks slots := by
      refine each.imp ?_
      intro chunk slot item
      exact Value.four_le_of_slotNodes (element.frugal.setItem item)
    calc rest.length
      _ < slots.length * 4 := few
      _ ≤ chunks.flatten.length := length_mul_le_length_flatten fours

end Declared

theorem decode_error_of_fails (failed : Fails codec.read (Cursor.ofBytes bytes)) :
    ∃ fault, codec.decode (some bytes) = .error fault := by
  obtain ⟨fault, failed⟩ := failed.run_whole
  refine ⟨fault, ?_⟩
  rw [decode, failed]

/-- A decoded value has one node, and one more for every four bytes at most.  A set or an array
that declares more elements than fours of bytes follow its header is not decoded, wherever it
stands; nor is a list read that declares more items than bytes follow its number, whatever the width
of the number. -/
theorem decoded_borne_by_bytes :
    (∀ (codec : Codec) (bytes : List UInt8) (result : Option Value),
      codec.decode (some bytes) = .ok result →
        ∃ value, result = some value ∧ value.nodes ≤ 1 + bytes.length / 4) ∧
    (∀ (type : Uuid) (element : Codec) (dimensions upper lower : Int32)
      (reserved rest : List UInt8), reserved.length = 8 → dimensions ≠ 0 →
      (rest.length : Int) < 4 * (upper.toInt - lower.toInt + 1) →
      ∀ codec ∈ [Codec.set type element, Codec.array type element],
        (∀ behind, Fails codec.read ⟨behind, header dimensions reserved upper lower ++ rest⟩) ∧
        ∃ fault, codec.decode (some (header dimensions reserved upper lower ++ rest)) =
          .error fault) ∧
    ∀ {α : Type} {read : Reads α}, ListedItem read →
      ∀ (width : Width) (start middle : Cursor) (number : Int),
        Reads.integer width start = .ok number middle → middle.remaining < number →
          Fails (Reads.array width read) start := by
  refine ⟨?_, ?_, ?_⟩
  · intro codec bytes result decoded
    obtain ⟨value, rfl, -⟩ := known_of_decode codec.conforms_of_read decoded
    have borne := codec.frugal decoded
    exact ⟨value, rfl, by omega⟩
  · intro type element dimensions upper lower reserved rest eight dimensioned short codec member
    have failed : ∀ behind,
        Fails codec.read ⟨behind, header dimensions reserved upper lower ++ rest⟩ := by
      rcases List.mem_pair.1 member with rfl | rfl
      · exact fails_set_read eight dimensioned short
      · exact fails_array_read eight dimensioned short
    exact ⟨failed, decode_error_of_fails (failed [])⟩
  · intro α read listed width start middle number declared short
    exact fails_array listed.takes_some declared short

/-- A set with an absent element, an array that declares as many elements as its bounds can, and a
list that declares as many items as eight bytes can. -/
theorem decoded_borne_by_bytes_sample :
    (Value.set [none, some (.int32 7)]).nodes ≤ 1 + 32 / 4 ∧
    (∃ fault, (Codec.array ⟨0, 1⟩ (.scalar ⟨0, 2⟩ .text)).decode
      (some (header 1 [0, 0, 0, 0, 0, 0, 0, 0] 2147483647 (-2147483648) ++ [0, 0, 0, 0])) =
        .error fault) ∧
    Fails (Reads.array .word64 Reads.text)
      (Cursor.ofBytes [255, 255, 255, 255, 255, 255, 255, 255, 0, 0, 0, 0]) := by
  obtain ⟨bounded, unborne, unlisted⟩ := @decoded_borne_by_bytes
  have decoded : (Codec.set ⟨0, 1⟩ (.scalar ⟨0, 2⟩ .int32)).decode
      (some (header 1 [0, 0, 0, 0, 0, 0, 0, 0] 2 1 ++
        [255, 255, 255, 255, 0, 0, 0, 4, 0, 0, 0, 7])) =
        .ok (some (.set [none, some (.int32 7)])) := rfl
  refine ⟨?_, ?_, ?_⟩
  · obtain ⟨_, ⟨⟩, borne⟩ := bounded _ _ _ decoded
    exact borne
  · exact (unborne ⟨0, 1⟩ (.scalar ⟨0, 2⟩ .text) 1 2147483647 (-2147483648) _ _ rfl (by decide)
      (by decide) _ (by simp)).2
  · exact unlisted .text .word64 _ ⟨_, [0, 0, 0, 0]⟩ 18446744073709551615 rfl (by decide)

end Codec
end SchemaWire
