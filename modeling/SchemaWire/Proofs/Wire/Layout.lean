import SchemaWire.Proofs.Wire.Reading
import SchemaWire.Proofs.Wire.Taking

/-!
# Exact layouts

A read has an exact layout if it gives a value for the bytes that are laid out so and for no others.
What is laid out needs no reader to be told: a number is its four bytes, a delimited byte string is
its length and its bytes or a length that tells of none, and items stand one after the other.
-/

namespace SchemaWire

/-- The four bytes of a number with sign. -/
def int32Bytes (number : Int32) : List UInt8 :=
  BigEndian.ofNat 4 number.toUInt32.toNat

/-- A length and as many bytes, or a length that tells that there is no byte string. -/
inductive Delimited (absent : Int → Prop) : List UInt8 → Option (List UInt8) → Prop where
  | absent {length : Int32} (told : absent length.toInt) : Delimited absent (int32Bytes length) none
  | present {length : Int32} {payload : List UInt8} (counted : length.toInt = payload.length)
      (told : ¬ absent length.toInt) :
      Delimited absent (int32Bytes length ++ payload) (some payload)

/-- An upper and a lower bound, both inclusive, with a number of items between them. -/
inductive Bounds : List UInt8 → Nat → Prop where
  | mk {upper lower : Int32} {length : Nat} (counted : upper.toInt - lower.toInt + 1 = length) :
      Bounds (int32Bytes upper ++ int32Bytes lower) length

namespace Reads

variable {α β : Type} {read : Reads α} {layout : List UInt8 → α → Prop}

/-- A read takes the bytes of a layout, whatever follows them, and no others. -/
structure Exactly (read : Reads α) (layout : List UInt8 → α → Prop) : Prop where
  gives : Gives read layout
  takes : ∀ ⦃bytes value⦄, layout bytes value → Takes read bytes value

/-- A computation on what was read takes nothing more. -/
theorem Exactly.ofExcept (exact : Exactly read layout) (result : α → Except Fault β) :
    Exactly (do let item ← read; Reads.ofExcept (result item)) fun bytes value =>
      ∃ item, layout bytes item ∧ result item = .ok value where
  gives := by
    refine exact.gives.bind fun front item laid => ?_
    refine gives_ofExcept fun value done => ?_
    rw [List.append_nil]
    exact ⟨item, laid, done⟩
  takes := by
    rintro bytes value ⟨item, laid, done⟩
    exact (exact.takes laid).then (takes_ofExcept done)

/-- A read whose value is seen as another takes what it took before. -/
theorem Exactly.map (exact : Exactly read layout) (view : α → β) :
    Exactly (do let item ← read; pure (view item)) fun bytes value =>
      ∃ item, layout bytes item ∧ value = view item where
  gives := by
    apply Gives.map
    refine exact.gives.mono fun bytes item laid => ?_
    exact ⟨item, laid, rfl⟩
  takes := by
    rintro bytes _ ⟨item, laid, rfl⟩
    exact (exact.takes laid).map view

theorem exactly_int32 : Exactly int32 fun bytes number => bytes = int32Bytes number where
  gives := by
    refine Gives.map (Gives.map ((gives_take .int32 4).mono ?_))
    rintro _ bytes ⟨rfl, four⟩
    have short : BigEndian.toNat bytes < 4294967296 := by
      have below := BigEndian.toNat_lt bytes
      rwa [four] at below
    rw [int32Bytes, UInt32.toUInt32_toInt32, UInt32.toNat_ofNat_of_lt' short, ← four,
      BigEndian.ofNat_toNat]
  takes := by
    rintro _ number rfl
    exact takes_int32 number

/-- A byte string after a length that a test may take for that of an absent one. -/
theorem exactly_delimited {test : Int32 → Prop} [DecidablePred test] {absent : Int → Prop}
    (agrees : ∀ length, test length ↔ absent length.toInt)
    (negative : ∀ length < 0, absent length) :
    Exactly (do
      let length ← int32
      if test length then
        pure none
      else
        let bytes ← Reads.bytes length.toInt.toNat
        pure (some bytes)) (Delimited absent) where
  gives := by
    refine exactly_int32.gives.bind fun _ length spelled => ?_
    subst spelled
    split
    case isTrue told =>
      refine gives_pure ?_
      rw [List.append_nil]
      exact .absent ((agrees length).1 told)
    case isFalse told =>
      rw [agrees] at told
      have natural : ¬ length.toInt < 0 := mt (negative _) told
      refine Gives.map ((gives_take .bytes _).mono ?_)
      rintro _ payload ⟨rfl, counted⟩
      exact .present (by omega) told
  takes := by
    intro bytes payload laid
    cases laid with
    | @absent length told =>
        refine (takes_int32 length).then ?_
        rw [if_pos ((agrees length).2 told)]
        exact takes_pure none
    | @present length payload counted told =>
        refine (takes_int32 length).bind ?_
        rw [if_neg (mt (agrees length).1 told)]
        exact (takes_take_of_length (by omega)).map some

theorem exactly_element : Exactly element (Delimited (· < 0)) := by
  apply exactly_delimited
  · intro length
    rw [Int32.lt_iff_toInt_lt, Int32.toInt_zero]
  · intro length negative
    exact negative

theorem exactly_byteArray : Exactly byteArray (Delimited (· ≤ 0)) := by
  apply exactly_delimited
  · intro length
    rw [Int32.le_iff_toInt_le, Int32.toInt_zero]
  · intro length negative
    exact Int.le_of_lt negative

/-- Items one after the other, as many as were asked for. -/
theorem exactly_numbered {read : Nat → Reads α} (one : ∀ index, Exactly (read index) layout)
    (count : Nat) :
    Exactly (numbered read count) fun bytes items =>
      ∃ chunks, bytes = chunks.flatten ∧ items.length = count ∧
        List.Forall₂ layout chunks items where
  gives := gives_numbered (fun index => (one index).gives) count
  takes := by
    rintro _ items ⟨chunks, rfl, rfl, each⟩
    exact takes_numbered (each.imp fun _ _ laid index => (one index).takes laid)

end Reads
end SchemaWire
