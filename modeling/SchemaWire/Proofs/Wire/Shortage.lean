import SchemaWire.Proofs.Descriptor
import SchemaWire.Wire.Operation
import Mathlib.Algebra.Order.BigOperators.Group.List
import Mathlib.Algebra.Order.Group.Nat
import Mathlib.Algebra.Ring.Nat

/-!
# Counts that the bytes cannot bear

A list declares its number of items before the items themselves.  If each of them takes bytes, then
a number that calls for more bytes than are left is a failure, however large it is: the reads of the
items run short before the number is reached.
-/

namespace SchemaWire

/-- Items that have their weight in bytes together have no more of it than all of their bytes. -/
theorem sum_le_length_flatten {α : Type} {weight : α → Nat} {chunks : List (List UInt8)}
    {items : List α}
    (each : List.Forall₂ (fun chunk item => weight item ≤ chunk.length) chunks items) :
    (items.map weight).sum ≤ chunks.flatten.length := by
  have bounded : List.Forall₂ (· ≤ ·) (items.map weight) (chunks.map List.length) := by
    rw [List.forall₂_map_left_iff, List.forall₂_map_right_iff]
    exact each.flip
  rw [List.length_flatten]
  exact bounded.sum_le_sum

/-- Items that have a least number of bytes each. -/
theorem length_mul_le_length_flatten {α : Type} {least : Nat} {chunks : List (List UInt8)}
    {items : List α} (each : List.Forall₂ (fun chunk _ => least ≤ chunk.length) chunks items) :
    items.length * least ≤ chunks.flatten.length := by
  have total := sum_le_length_flatten each
  rwa [List.map_const', List.sum_replicate_nat] at total

namespace Reads

open Fallible

variable {α β : Type} {read : Reads α} {next : α → Reads β} {start middle : Cursor}

/-- A read fails from a cursor on. -/
def Fails (read : Reads α) (start : Cursor) : Prop :=
  ∃ fault stop, read start = .error fault stop

theorem fails_iff : Fails read start ↔ ∀ value stop, read start ≠ .ok value stop := by
  rw [Fails]
  cases read start with
  | ok value stop => simp
  | error fault stop => simp

theorem Fails.bind (failed : Fails read start) : Fails (read >>= next) start := by
  obtain ⟨fault, stop, failed⟩ := failed
  exact ⟨fault, stop, bind_apply_error failed⟩

theorem fails_bind_of_ok {item : α} (done : read start = .ok item middle)
    (failed : Fails (next item) middle) : Fails (read >>= next) start := by
  rw [Fails, bind_apply_ok done]
  exact failed

theorem Takes.fails {front back : List UInt8} {item : α} (taken : Takes read front item)
    (failed : ∀ behind, Fails (next item) ⟨behind, back⟩) (behind : List UInt8) :
    Fails (read >>= next) ⟨behind, front ++ back⟩ := by
  apply fails_bind_of_ok (taken behind back)
  exact failed _

/-- A read that would have to take more than is left fails. -/
theorem Gives.fails {known : List UInt8 → α → Prop} (given : Gives read known)
    (short : ∀ bytes value, known bytes value → start.remaining < bytes.length) :
    Fails read start := by
  rw [fails_iff]
  intro value stop done
  obtain ⟨bytes, ahead, -, sure⟩ := given done
  have more := short bytes value sure
  rw [Cursor.remaining, ahead, List.length_append] at more
  omega

theorem Fails.run_whole {bytes : List UInt8} (failed : Fails read (Cursor.ofBytes bytes)) :
    ∃ fault, (whole read).run bytes = .error fault := by
  obtain ⟨fault, stop, failed⟩ := failed
  exact ⟨fault, whole_run_of_error failed⟩

/-! ## Lists -/

/-- A regular read that does not make something of nothing takes a byte at least. -/
theorem Regular.takes_some (regular : Regular read) (fails : Fails read (Cursor.ofBytes [])) :
    Gives read fun bytes _ => 1 ≤ bytes.length := by
  refine regular.gives.mono fun bytes value delimits => ?_
  by_contra nothing
  obtain rfl := List.length_eq_zero_iff.1 (Nat.lt_one_iff.1 (Nat.not_le.1 nothing))
  exact fails_iff.1 fails _ _ (delimits.takes [] [])

theorem fails_repeated {count : Nat} (one : Gives read fun bytes _ => 1 ≤ bytes.length)
    (short : start.remaining < count) : Fails (repeated read count) start := by
  refine (gives_numbered (fun _ => one) count).fails ?_
  rintro _ items ⟨chunks, rfl, counted, each⟩
  calc
    start.remaining < items.length * 1 := by rwa [counted, Nat.mul_one]
    _ ≤ chunks.flatten.length := length_mul_le_length_flatten each

/-- Items that take a byte each are not read after a number of more of them than bytes are left. -/
theorem fails_array {width : Width} {number : Int}
    (one : Gives read fun bytes _ => 1 ≤ bytes.length)
    (declared : integer width start = .ok number middle) (short : middle.remaining < number) :
    Fails (array width read) start := by
  cases fits : Misfit.of? 0 Misfit.countMax number with
  | none =>
      have counted : count width start = .ok number.toNat middle := by
        rw [count, bind_apply_ok declared, fits]
        rfl
      exact fails_bind_of_ok counted (fails_repeated one (by omega))
  | some misfit =>
      refine Fails.bind ⟨.framing (.count width number misfit), middle, ?_⟩
      rw [count, bind_apply_ok declared, fits]
      rfl

end Reads

open Reads

/-- The reads of the items that payloads list after their number. -/
inductive ListedItem : {α : Type} → Reads α → Prop where
  /-- Texts: the methods of a server, the members of an enumeration. -/
  | text : ListedItem Reads.text
  /-- The rows of data. -/
  | byteArray : ListedItem Reads.byteArray
  /-- The types of the elements of a tuple. -/
  | word16 : ListedItem Reads.word16
  /-- Annotations. -/
  | annotation : ListedItem NamedText.read
  /-- Attributes. -/
  | coded : ListedItem Attribute.read
  /-- Attributes whose values are elements. -/
  | codedElement : ListedItem Attribute.readElement
  /-- Extensions of the protocol. -/
  | extension : ListedItem Extension.read
  /-- Elements of object shapes and input shapes. -/
  | shapeElement : ListedItem ShapeElement.read
  /-- Elements of named tuples. -/
  | namedElement : ListedItem Descriptor.readNamed
  /-- Dimensions of arrays. -/
  | dimension : ListedItem Descriptor.readDimension

namespace ListedItem

variable {α : Type} {read : Reads α}

theorem regular (listed : ListedItem read) : Regular read := by
  cases listed with
  | text => exact regular_text
  | byteArray => exact regular_byteArray
  | word16 => exact regular_word16
  | annotation => exact NamedText.regular_read
  | coded => exact Attribute.regular_read
  | codedElement =>
      refine regular_word16.bind fun code => ?_
      exact regular_element.map _
  | extension => exact Extension.regular_read
  | shapeElement => exact ShapeElement.regular_read
  | namedElement => exact Descriptor.regular_readNamed
  | dimension => exact Descriptor.regular_readDimension

theorem takes_some (listed : ListedItem read) : Gives read fun bytes _ => 1 ≤ bytes.length := by
  refine listed.regular.takes_some ?_
  cases listed <;> exact ⟨_, _, rfl⟩

end ListedItem
end SchemaWire
