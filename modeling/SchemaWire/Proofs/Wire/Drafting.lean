import SchemaWire.Proofs.Fallible
import SchemaWire.Wire.Draft
import Mathlib.Data.List.Forall2

/-!
# What writes leave behind

A write that succeeds adds bytes to the end of a draft and changes nothing else.  For most writes
the bytes are known beforehand; a body after its length is known once it has been written.
-/

namespace SchemaWire

namespace Draft

/-- A draft with further bytes at its end. -/
def add (draft : Draft) (bytes : List UInt8) : Draft :=
  { draft with buffer := draft.buffer ++ bytes }

@[simp]
theorem add_nil (draft : Draft) : draft.add [] = draft := by
  simp [add]

@[simp]
theorem add_add (draft : Draft) (first second : List UInt8) :
    (draft.add first).add second = draft.add (first ++ second) := by
  simp only [add, mk.injEq, and_true]
  apply Array.ext'
  simp

@[simp]
theorem toList_buffer_add (draft : Draft) (bytes : List UInt8) :
    (draft.add bytes).buffer.toList = draft.buffer.toList ++ bytes :=
  Array.toList_appendList

@[simp]
theorem size_buffer_add (draft : Draft) (bytes : List UInt8) :
    (draft.add bytes).buffer.size = draft.buffer.size + bytes.length := by
  rw [← Array.length_toList, toList_buffer_add, List.length_append, Array.length_toList]

theorem toList_overwrite (buffer : Array UInt8) (position : Nat) (bytes : List UInt8)
    (fits : position + bytes.length ≤ buffer.size) :
    (overwrite buffer position bytes).toList =
      buffer.toList.take position ++ bytes ++ buffer.toList.drop (position + bytes.length) := by
  induction bytes generalizing buffer position with
  | nil => simp [overwrite]
  | cons byte bytes ih =>
      rw [List.length_cons] at fits
      have inside : position < buffer.toList.length := by
        rw [Array.length_toList]
        omega
      rw [overwrite, ih _ _ (by rw [Array.size_setIfInBounds]; omega), Array.toList_setIfInBounds,
        List.drop_set_of_lt (by omega), List.take_succ_eq_append_getElem (by simpa using inside),
        List.take_set_of_le (by omega), List.getElem_set_self]
      simp [Nat.add_right_comm, Nat.add_assoc]

/-- Bytes written over others of the same length stand in their place. -/
theorem overwrite_add {place word : List UInt8} (long : word.length = place.length)
    (draft : Draft) (bytes : List UInt8) :
    overwrite ((draft.add place).add bytes).buffer draft.buffer.size word =
      ((draft.add word).add bytes).buffer := by
  apply Array.ext'
  rw [toList_overwrite _ _ _ (by rw [size_buffer_add, size_buffer_add]; omega)]
  simp only [toList_buffer_add]
  have front : draft.buffer.size = draft.buffer.toList.length := Array.length_toList.symm
  have back : draft.buffer.size + word.length = (draft.buffer.toList ++ place).length := by
    rw [List.length_append, front, long]
  have begins : ((draft.buffer.toList ++ place) ++ bytes).take draft.buffer.size =
      draft.buffer.toList := by
    rw [front, List.append_assoc, List.take_left]
  have ends : ((draft.buffer.toList ++ place) ++ bytes).drop (draft.buffer.size + word.length) =
      bytes := by
    rw [back, List.drop_left]
  rw [begins, ends]

/-- A draft may grow by a number of bytes. -/
structure Room (draft : Draft) (length : Nat) : Prop where
  begun : draft.start ≤ draft.buffer.size
  unbroken : draft.broken? length = none

theorem Room.mono {draft : Draft} {less more : Nat} (room : draft.Room more) (order : less ≤ more) :
    draft.Room less := by
  refine ⟨room.begun, ?_⟩
  have unbroken := room.unbroken
  unfold broken? at unbroken ⊢
  split
  case h_1 => rfl
  case h_2 limit bounded =>
    rw [bounded] at unbroken
    have within : ¬ limit < draft.written + more := by simpa using unbroken
    exact if_neg (by omega)

theorem written_add {draft : Draft} (begun : draft.start ≤ draft.buffer.size)
    (bytes : List UInt8) : (draft.add bytes).written = draft.written + bytes.length := by
  rw [written, size_buffer_add]
  simp only [written, Draft.add]
  omega

/-- What is left of the room after some bytes. -/
theorem Room.add {draft : Draft} {front : List UInt8} {length : Nat}
    (room : draft.Room (front.length + length)) : (draft.add front).Room length := by
  constructor
  · have begun := room.begun
    rw [size_buffer_add]
    simp only [Draft.add]
    omega
  · rw [broken?, written_add room.begun, Nat.add_assoc]
    exact room.unbroken

/-- Room that is left after some bytes was there beside them. -/
theorem Room.of_add {draft : Draft} {front : List UInt8} {length : Nat}
    (room : (draft.add front).Room length) (begun : draft.start ≤ draft.buffer.size) :
    draft.Room (front.length + length) := by
  refine ⟨begun, ?_⟩
  have unbroken := room.unbroken
  rw [broken?, written_add begun, Nat.add_assoc] at unbroken
  exact unbroken

theorem written_after (buffer : Array UInt8) (limit : Option Nat) :
    (Draft.after buffer limit).written = 0 :=
  Nat.sub_self _

/-- An empty payload has room for as many bytes as its bound allows. -/
theorem room_after_iff {buffer : Array UInt8} {limit : Option Nat} {length : Nat} :
    (Draft.after buffer limit).Room length ↔ ∀ most, limit = some most → length ≤ most := by
  cases limit with
  | none =>
      constructor
      · intro _ most never
        simp at never
      · intro _
        exact ⟨Nat.le_refl _, rfl⟩
  | some most =>
      have bound : (Draft.after buffer (some most)).broken? length =
          if most < (Draft.after buffer (some most)).written + length then some most
          else none := rfl
      rw [written_after, Nat.zero_add] at bound
      constructor
      · rintro ⟨-, unbroken⟩ other same
        obtain rfl : most = other := Option.some.inj same
        rw [bound] at unbroken
        simpa using unbroken
      · intro fits
        have within : ¬ most < length := Nat.not_lt.2 (fits most rfl)
        rw [if_neg within] at bound
        exact ⟨Nat.le_refl _, bound⟩

end Draft

/-- Bytes after their length. -/
def boxed (bytes : List UInt8) : List UInt8 :=
  BigEndian.ofNat 4 bytes.length ++ bytes

theorem length_boxed (bytes : List UInt8) : (boxed bytes).length = 4 + bytes.length := by
  rw [boxed, List.length_append, BigEndian.length_ofNat]

namespace Writes

open Fallible

variable {draft after : Draft}

/-- What a write adds whenever it succeeds. -/
def Adds (write : Writes Unit) (bytes : List UInt8) : Prop :=
  ∀ ⦃draft after⦄, write draft = .ok () after → after = draft.add bytes

theorem ofExcept_eq_ok {α : Type} {result : Except Fault α} {value : α} :
    ofExcept result draft = .ok value after ↔ result = .ok value ∧ draft = after := by
  cases result <;> simp [ofExcept]

theorem reserve_of_room {length : Nat} (room : draft.Room length) :
    reserve length draft = .ok () draft := by
  rw [reserve, room.unbroken]

theorem reserve_of_broken {length limit : Nat} (broken : draft.broken? length = some limit) :
    reserve length draft =
      .error (.framing (.overflow length limit draft.written)) draft := by
  rw [reserve, broken]

theorem adds_pure : Adds (pure ()) [] := by
  intro draft after done
  obtain rfl : draft = after := by simpa using done
  rw [Draft.add_nil]

theorem Adds.bind {first second : Writes Unit} {front back : List UInt8} (head : Adds first front)
    (tail : Adds second back) :
    Adds (do first; second) (front ++ back) := by
  intro draft after done
  obtain ⟨_, middle, opened, closed⟩ := bind_apply_eq_ok.1 done
  rw [tail closed, head opened, Draft.add_add]

theorem adds_put (bytes : List UInt8) : Adds (put bytes) bytes := by
  intro draft after done
  obtain ⟨_, middle, reserved, closed⟩ := bind_apply_eq_ok.1 done
  unfold reserve at reserved
  split at reserved
  case h_2 => simp at reserved
  case h_1 =>
    obtain rfl : draft = middle := by simpa using reserved
    simpa [Draft.add] using closed.symm

theorem adds_byte (value : UInt8) : Adds (byte value) [value] :=
  adds_put _

theorem adds_word32 (value : UInt32) : Adds (word32 value) (BigEndian.ofNat 4 value.toNat) :=
  adds_put _

theorem adds_word64 (value : UInt64) : Adds (word64 value) (BigEndian.ofNat 8 value.toNat) :=
  adds_put _

theorem adds_int16 (value : Int16) :
    Adds (int16 value) (BigEndian.ofNat 2 value.toUInt16.toNat) :=
  adds_put _

theorem adds_int32 (value : Int32) :
    Adds (int32 value) (BigEndian.ofNat 4 value.toUInt32.toNat) :=
  adds_put _

theorem adds_int64 (value : Int64) :
    Adds (int64 value) (BigEndian.ofNat 8 value.toUInt64.toNat) :=
  adds_put _

theorem adds_uuid (id : Uuid) : Adds (uuid id) id.bytes :=
  adds_put _

theorem lengthWord_eq_ok {length : Nat} {word : UInt32} :
    lengthWord length = .ok word ↔ length ≤ Misfit.lengthMax ∧ word = UInt32.ofNat length := by
  rw [lengthWord]
  split
  case isTrue fits => simp [fits, eq_comm]
  case isFalse long => simp [long]

theorem lengthWord_of_long {length : Nat} (long : Misfit.lengthMax < length) :
    lengthWord length = .error (.encode (.length length)) :=
  if_neg (Nat.not_le.2 long)

theorem toNat_lengthWord {length : Nat} (fits : length ≤ Misfit.lengthMax) :
    (UInt32.ofNat length).toNat = length := by
  rw [UInt32.toNat_ofNat', Nat.mod_eq_of_lt]
  exact Nat.lt_of_le_of_lt fits (by decide)

/-! ## Bytes known once they are written -/

/-- A write that succeeds adds bytes of which something is known. -/
def Leaves (write : Writes Unit) (good : List UInt8 → Prop) : Prop :=
  ∀ ⦃draft after⦄, write draft = .ok () after → ∃ bytes, after = draft.add bytes ∧ good bytes

variable {write first second : Writes Unit} {good : List UInt8 → Prop}

theorem Leaves.mono {better : List UInt8 → Prop} (left : Leaves write better)
    (weaker : ∀ bytes, better bytes → good bytes) : Leaves write good := by
  intro draft after done
  obtain ⟨bytes, grown, known⟩ := left done
  exact ⟨bytes, grown, weaker bytes known⟩

theorem Adds.leaves {bytes : List UInt8} (added : Adds write bytes) (known : good bytes) :
    Leaves write good := by
  intro draft after done
  exact ⟨bytes, added done, known⟩

theorem Adds.bindLeaves {front : List UInt8} (head : Adds first front)
    (tail : Leaves second fun back => good (front ++ back)) :
    Leaves (do first; second) good := by
  intro draft after done
  obtain ⟨_, middle, opened, closed⟩ := bind_apply_eq_ok.1 done
  obtain ⟨back, grown, known⟩ := tail closed
  rw [head opened, Draft.add_add] at grown
  exact ⟨front ++ back, grown, known⟩

theorem Leaves.bind {left : List UInt8 → Prop} (head : Leaves first left)
    (tail : ∀ front, left front → Leaves second fun back => good (front ++ back)) :
    Leaves (do first; second) good := by
  intro draft after done
  obtain ⟨_, middle, opened, closed⟩ := bind_apply_eq_ok.1 done
  obtain ⟨front, rfl, known⟩ := head opened
  obtain ⟨back, rfl, whole⟩ := tail front known closed
  exact ⟨front ++ back, Draft.add_add draft front back, whole⟩

theorem leaves_throw (fault : Fault) : Leaves (throw fault) good := by
  intro draft after done
  simp at done

theorem leaves_ofExcept_bind {α : Type} {result : Except Fault α} {next : α → Writes Unit}
    (tail : ∀ value, result = .ok value → Leaves (next value) good) :
    Leaves (do let value ← ofExcept result; next value) good := by
  intro draft after done
  obtain ⟨value, _, lifted, closed⟩ := bind_apply_eq_ok.1 done
  obtain ⟨held, rfl⟩ := ofExcept_eq_ok.1 lifted
  exact tail value held closed

/-- A body is written after four bytes that hold a place, and its length takes that place. -/
theorem lengthPrefixed_of_body {body : Writes Unit} {bytes : List UInt8}
    (placed : int32 0 draft = .ok () (draft.add [0, 0, 0, 0]))
    (written : body (draft.add [0, 0, 0, 0]) = .ok () ((draft.add [0, 0, 0, 0]).add bytes))
    (fits : bytes.length ≤ Misfit.lengthMax) :
    lengthPrefixed body draft = .ok () (draft.add (boxed bytes)) := by
  have measured : lengthWord bytes.length = .ok (UInt32.ofNat bytes.length) :=
    lengthWord_eq_ok.2 ⟨fits, rfl⟩
  have replaced := @Draft.overwrite_add [0, 0, 0, 0] (BigEndian.ofNat 4 bytes.length)
    (BigEndian.length_ofNat 4 bytes.length) draft bytes
  rw [lengthPrefixed, bind_apply_ok placed, bind_apply_ok (get_apply _), bind_apply_ok written,
    bind_apply_ok (get_apply _), Draft.size_buffer_add _ bytes, Nat.add_sub_cancel_left,
    bind_apply_ok (ofExcept_eq_ok.2 ⟨measured, rfl⟩), modify_apply, toNat_lengthWord fits,
    Draft.size_buffer_add _ [0, 0, 0, 0], boxed, ← Draft.add_add]
  exact congrArg (fun buffer => EStateM.Result.ok () ({ draft with buffer } : Draft)) replaced

theorem lengthPrefixed_of_error {body : Writes Unit} {fault : Fault}
    (placed : int32 0 draft = .ok () (draft.add [0, 0, 0, 0]))
    (failed : body (draft.add [0, 0, 0, 0]) = .error fault after) :
    lengthPrefixed body draft = .error fault after := by
  rw [lengthPrefixed, bind_apply_ok placed, bind_apply_ok (get_apply _), bind_apply_error failed]

/-- A body whose length does not fit stays behind the place held for it. -/
theorem lengthPrefixed_of_long {body : Writes Unit} {bytes : List UInt8}
    (placed : int32 0 draft = .ok () (draft.add [0, 0, 0, 0]))
    (written : body (draft.add [0, 0, 0, 0]) = .ok () ((draft.add [0, 0, 0, 0]).add bytes))
    (long : Misfit.lengthMax < bytes.length) :
    lengthPrefixed body draft =
      .error (.encode (.length bytes.length)) ((draft.add [0, 0, 0, 0]).add bytes) := by
  have measured : (ofExcept (lengthWord bytes.length) : Writes UInt32)
      ((draft.add [0, 0, 0, 0]).add bytes) =
        .error (.encode (.length bytes.length)) ((draft.add [0, 0, 0, 0]).add bytes) := by
    rw [lengthWord_of_long long]
    rfl
  rw [lengthPrefixed, bind_apply_ok placed, bind_apply_ok (get_apply _), bind_apply_ok written,
    bind_apply_ok (get_apply _), Draft.size_buffer_add _ bytes, Nat.add_sub_cancel_left,
    bind_apply_error measured]

/-- If a body after its length is written, then the length fits. -/
theorem leaves_lengthPrefixed {body : Writes Unit}
    (inner : Leaves body fun bytes => bytes.length ≤ Misfit.lengthMax → good (boxed bytes)) :
    Leaves (lengthPrefixed body) good := by
  intro draft after done
  obtain ⟨_, opened, placed, rest⟩ := bind_apply_eq_ok.1 done
  obtain rfl : opened = draft.add [0, 0, 0, 0] := adds_int32 0 placed
  rw [bind_apply_ok (get_apply _)] at rest
  obtain ⟨_, middle, written, rest⟩ := bind_apply_eq_ok.1 rest
  obtain ⟨bytes, rfl, known⟩ := inner written
  rw [bind_apply_ok (get_apply _), Draft.size_buffer_add _ bytes, Nat.add_sub_cancel_left] at rest
  obtain ⟨word, _, measured, -⟩ := bind_apply_eq_ok.1 rest
  obtain ⟨fits, -⟩ := lengthWord_eq_ok.1 (ofExcept_eq_ok.1 measured).1
  rw [lengthPrefixed_of_body placed written fits] at done
  exact ⟨boxed bytes, (EStateM.Result.ok.inj done).2.symm, known fits⟩

theorem leaves_each {α : Type} {write : α → Writes Unit} {items : List α}
    {suits : α → List UInt8 → Prop} (one : ∀ item ∈ items, Leaves (write item) (suits item)) :
    Leaves (each write items) fun bytes =>
      ∃ chunks, bytes = chunks.flatten ∧ List.Forall₂ suits items chunks := by
  induction items with
  | nil => exact adds_pure.leaves ⟨[], rfl, .nil⟩
  | cons item items ih =>
      refine (one item List.mem_cons_self).bind fun front known => ?_
      have others : Leaves (each write items) _ := ih fun other member =>
        one other (List.mem_cons_of_mem item member)
      refine others.mono ?_
      rintro back ⟨chunks, rfl, suited⟩
      exact ⟨front :: chunks, rfl, .cons known suited⟩

/-! ## Writes that have room -/

/-- A write adds its bytes to every draft that has room for them. -/
def Emits (write : Writes Unit) (bytes : List UInt8) : Prop :=
  ∀ ⦃draft : Draft⦄, draft.Room bytes.length → write draft = .ok () (draft.add bytes)

theorem emits_pure : Emits (pure ()) [] := by
  intro draft _
  rw [Draft.add_nil]
  rfl

theorem emits_put (bytes : List UInt8) : Emits (put bytes) bytes := by
  intro draft room
  exact bind_apply_ok (reserve_of_room room)

theorem Emits.bind {first second : Writes Unit} {front back : List UInt8}
    (head : Emits first front) (tail : Emits second back) :
    Emits (do first; second) (front ++ back) := by
  intro draft room
  rw [List.length_append] at room
  have opening : draft.Room front.length := room.mono (Nat.le_add_right _ _)
  calc (do first; second : Writes Unit) draft
    _ = second (draft.add front) := bind_apply_ok (head opening)
    _ = .ok () ((draft.add front).add back) := tail room.add
    _ = .ok () (draft.add (front ++ back)) := by rw [Draft.add_add]

theorem emits_byteArray {bytes : List UInt8} (fits : bytes.length ≤ Misfit.lengthMax) :
    Emits (byteArray (some bytes)) (boxed bytes) := by
  intro draft room
  have reserved : reserve (4 + bytes.length) draft = .ok () draft := by
    rw [length_boxed] at room
    exact reserve_of_room room
  have counted : lengthWord bytes.length = .ok (UInt32.ofNat bytes.length) :=
    lengthWord_eq_ok.2 ⟨fits, rfl⟩
  rw [byteArray, bind_apply_ok reserved,
    bind_apply_ok (ofExcept_eq_ok.2 ⟨counted, rfl⟩)]
  have boxes := (emits_put (BigEndian.ofNat 4 bytes.length)).bind (emits_put bytes)
  rw [← boxed] at boxes
  rw [word32, toNat_lengthWord fits]
  exact boxes room

/-- A byte string that is too long for its length is refused before anything is written. -/
theorem byteArray_of_long {bytes : List UInt8} (room : draft.Room (4 + bytes.length))
    (long : Misfit.lengthMax < bytes.length) :
    byteArray (some bytes) draft = .error (.encode (.length bytes.length)) draft := by
  rw [byteArray, bind_apply_ok (reserve_of_room room), lengthWord_of_long long]
  exact bind_apply_error (throw_apply _ _)

theorem emits_word32 (value : UInt32) : Emits (word32 value) (BigEndian.ofNat 4 value.toNat) :=
  emits_put _

theorem emits_int32 (value : Int32) :
    Emits (int32 value) (BigEndian.ofNat 4 value.toUInt32.toNat) :=
  emits_put _

theorem emits_ofExcept_bind {α : Type} {result : Except Fault α} {next : α → Writes Unit}
    {value : α} {bytes : List UInt8} (held : result = .ok value) (tail : Emits (next value) bytes) :
    Emits (do let value ← ofExcept result; next value) bytes := by
  intro draft room
  rw [bind_apply_ok (ofExcept_eq_ok.2 ⟨held, rfl⟩)]
  exact tail room

/-- Where there is room for a body and its length, there is room for the body behind the place that
is held for its length. -/
theorem placed_of_room {length : Nat} (room : draft.Room (4 + length)) :
    int32 0 draft = .ok () (draft.add [0, 0, 0, 0]) ∧ (draft.add [0, 0, 0, 0]).Room length := by
  have four : draft.Room 4 := room.mono (Nat.le_add_right 4 length)
  exact ⟨emits_int32 0 four, @Draft.Room.add draft [0, 0, 0, 0] length room⟩

theorem emits_lengthPrefixed {body : Writes Unit} {bytes : List UInt8} (inner : Emits body bytes)
    (fits : bytes.length ≤ Misfit.lengthMax) : Emits (lengthPrefixed body) (boxed bytes) := by
  intro draft room
  rw [length_boxed] at room
  obtain ⟨placed, left⟩ := placed_of_room room
  exact lengthPrefixed_of_body placed (inner left) fits

theorem emits_each {α : Type} {write : α → Writes Unit} {items : List α}
    {chunks : List (List UInt8)}
    (one : List.Forall₂ (fun item chunk => Emits (write item) chunk) items chunks) :
    Emits (each write items) chunks.flatten := by
  induction one with
  | nil => exact emits_pure
  | cons head _ ih => exact head.bind ih

/-- There is room for any number of bytes without a bound. -/
theorem run_of_emits {bytes : List UInt8} (emitted : Emits write bytes) :
    write.run = .ok bytes := by
  have room : (Draft.after #[] none).Room bytes.length := ⟨Nat.le_refl _, rfl⟩
  rw [run, emitted room]
  simp [Draft.after]

end Writes
end SchemaWire
