import SchemaWire.Proofs.Codec.Conformity
import SchemaWire.Proofs.Wire.Layout

/-!
# Layouts of sets, arrays and tuples

Sets, arrays and tuples are decoded from the byte strings that have their layouts and from no
others.  A layout names its parts: reserved bytes that may hold anything, bounds that tell the
number of items by their distance, and items that are delimited byte strings for the inner codec.
The items of a set of arrays alone have no length of their own; each is an envelope around the
layout of an array, which tells where it ends.
-/

namespace SchemaWire

open Reads

/-- A delimited byte string that a codec decodes. -/
def Codec.Item (absent : Int → Prop) (codec : Codec) (bytes : List UInt8) (slot : Option Value) :
    Prop :=
  ∃ payload, Delimited absent bytes payload ∧ codec.decode payload = .ok slot

/-- The layout of an array.  A length of zero is that of an empty payload, and no element may be
absent. -/
inductive ArrayLayout (element : Codec) : List UInt8 → List Value → Prop where
  | empty {reserved : List UInt8} (eight : reserved.length = 8) :
      ArrayLayout element (int32Bytes 0 ++ reserved) []
  | filled {reserved bounds : List UInt8} {chunks : List (List UInt8)} {elements : List Value}
      (eight : reserved.length = 8) (bounded : Bounds bounds elements.length)
      (each : List.Forall₂ (fun chunk value => element.Item (· < 0) chunk (some value))
        chunks elements) :
      ArrayLayout element (int32Bytes 1 ++ (reserved ++ (bounds ++ chunks.flatten))) elements

/-- The layout of an item of a set: one that may be absent, by a length of zero or less, or an
envelope around one array. -/
inductive SetItem : Codec → List UInt8 → Option Value → Prop where
  | plain {codec : Codec} {bytes : List UInt8} {slot : Option Value}
      (unwrapped : codec.isEnveloped = false) (item : codec.Item (· ≤ 0) bytes slot) :
      SetItem codec bytes slot
  | enveloped {type : Uuid} {element : Codec} {reserved flags content : List UInt8}
      {elements : List Value} (four : reserved.length = 4) (flagged : flags.length = 4)
      (laid : ArrayLayout element content elements) :
      SetItem (.array type element) (reserved ++ (int32Bytes 1 ++ (flags ++ content)))
        (some (.array elements))

/-- The layout of a set.  An empty one may end after its number of dimensions. -/
inductive SetLayout (element : Codec) : List UInt8 → List (Option Value) → Prop where
  | bare : SetLayout element (int32Bytes 0) []
  | empty {reserved : List UInt8} (eight : reserved.length = 8) :
      SetLayout element (int32Bytes 0 ++ reserved) []
  | filled {reserved bounds : List UInt8} {chunks : List (List UInt8)}
      {slots : List (Option Value)} (eight : reserved.length = 8)
      (bounded : Bounds bounds slots.length) (each : List.Forall₂ (SetItem element) chunks slots) :
      SetLayout element (int32Bytes 1 ++ (reserved ++ (bounds ++ chunks.flatten))) slots

/-- The slots of a tuple, one for each codec.  Only a length below zero is that of an absent one. -/
inductive SlotsLayout : List Codec → List UInt8 → List (Option Value) → Prop where
  | nil : SlotsLayout [] [] []
  | cons {codec : Codec} {codecs : List Codec} {reserved bytes rest : List UInt8}
      {slot : Option Value} {slots : List (Option Value)} (four : reserved.length = 4)
      (item : codec.Item (· < 0) bytes slot) (others : SlotsLayout codecs rest slots) :
      SlotsLayout (codec :: codecs) (reserved ++ bytes ++ rest) (slot :: slots)

/-- The layout of a tuple. -/
inductive TupleLayout (codecs : List Codec) : List UInt8 → List (Option Value) → Prop where
  | mk {count : Int32} {rest : List UInt8} {slots : List (Option Value)}
      (arity : count.toInt = codecs.length) (laid : SlotsLayout codecs rest slots) :
      TupleLayout codecs (int32Bytes count ++ rest) slots

namespace Codec

variable {absent : Int → Prop} {codec : Codec}

/-! ## Items and bounds -/

theorem readWithin_read (codec : Codec) (payload : Option (List UInt8)) :
    readWithin codec.read payload = Reads.ofExcept (codec.decode payload) := by
  cases payload with
  | none => rfl
  | some bytes =>
      rw [readWithin, decode]
      cases (whole codec.read).run bytes <;> rfl

theorem exactly_item {read : Reads (Option (List UInt8))}
    (exact : Exactly read (Delimited absent)) (codec : Codec) :
    Exactly (do let payload ← read; readWithin codec.read payload) (codec.Item absent) := by
  simp only [readWithin_read]
  exact exact.ofExcept codec.decode

theorem dimensionLength_eq_ok_iff {type : Uuid} {upper lower : Int32} {length : Nat} :
    dimensionLength type upper lower = .ok length ↔ upper.toInt - lower.toInt + 1 = length := by
  have upperBound := upper.toInt_lt
  have lowerBound := lower.le_toInt
  rw [dimensionLength]
  constructor
  · intro held
    split at held
    case h_2 => simp at held
    case h_1 fits =>
      have natural := (Misfit.of?_eq_none_iff.1 fits).1
      rw [← Except.ok.inj held, Int.toNat_of_nonneg natural]
  · intro counted
    have fits : Misfit.of? 0 Misfit.countMax (upper.toInt - lower.toInt + 1) = none := by
      rw [Misfit.of?_eq_none_iff, Misfit.countMax, UInt64.size]
      omega
    rw [fits, counted]
    rfl

theorem exactly_readLength (type : Uuid) : Exactly (readLength type) Bounds where
  gives := by
    refine exactly_int32.gives.bind fun _ upper first =>
      exactly_int32.gives.bind fun _ lower second => gives_ofExcept fun length held => ?_
    subst first second
    rw [List.append_nil]
    exact .mk (dimensionLength_eq_ok_iff.1 held)
  takes := by
    rintro _ _ ⟨counted⟩
    exact (takes_int32 _).bind ((takes_int32 _).then
      (takes_ofExcept (dimensionLength_eq_ok_iff.2 counted)))

/-! ## Arrays -/

theorem exactly_readElement (type : Uuid) (element : Codec) (index : Nat) :
    Exactly (readElement type element.read index) fun bytes value =>
      element.Item (· < 0) bytes (some value) where
  gives := by
    refine exactly_element.gives.bind fun front payload laid => ?_
    rw [readWithin_read]
    refine gives_ofExcept_bind fun slot decoded => ?_
    cases slot with
    | none => exact gives_throw _
    | some value =>
        refine gives_pure ⟨payload, ?_, decoded⟩
        rwa [List.append_nil]
  takes := by
    rintro bytes value ⟨payload, laid, decoded⟩
    refine (exactly_element.takes laid).then ?_
    rw [readWithin_read, decoded]
    exact takes_pure value

theorem exactly_array (type : Uuid) (element : Codec) :
    Exactly (Codec.array type element).read fun bytes value =>
      ∃ elements, value = .array elements ∧ ArrayLayout element bytes elements where
  gives := by
    refine exactly_int32.gives.bind fun _ dimensions spelled =>
      (gives_skip 8).bind fun reserved _ eight => ?_
    subst spelled
    split
    case isTrue zero =>
      subst zero
      refine gives_pure ⟨[], rfl, ?_⟩
      rw [List.append_nil]
      exact .empty eight
    case isFalse =>
      split
      case isFalse => exact gives_throw _
      case isTrue one =>
        subst one
        refine (exactly_readLength type).gives.bind fun bounds length bounded => ?_
        have items := exactly_numbered (exactly_readElement type element) length
        refine Gives.map (items.gives.mono ?_)
        rintro _ elements ⟨chunks, rfl, rfl, each⟩
        exact ⟨elements, rfl, .filled eight bounded each⟩
  takes := by
    rintro bytes _ ⟨elements, rfl, laid⟩
    cases laid with
    | empty eight => exact (takes_int32 0).bind ((takes_skip eight).then (takes_pure _))
    | @filled _ _ chunks _ eight bounded each =>
        have items := (exactly_numbered (exactly_readElement type element) _).takes
          ⟨chunks, rfl, rfl, each⟩
        refine (takes_int32 1).bind ?_
        refine (takes_skip eight).bind ?_
        refine ((exactly_readLength type).takes bounded).bind ?_
        exact items.then (takes_pure _)

/-! ## Sets -/

theorem exactly_plain (unwrapped : codec.isEnveloped = false) :
    Exactly (do let payload ← byteArray; readWithin codec.read payload) (SetItem codec) where
  gives := by
    refine (exactly_item exactly_byteArray codec).gives.mono ?_
    intro bytes slot item
    exact .plain unwrapped item
  takes := by
    intro bytes slot laid
    cases laid with
    | plain _ item => exact (exactly_item exactly_byteArray codec).takes item
    | enveloped => simp [isEnveloped] at unwrapped

theorem exactly_enveloped (set type : Uuid) (element : Codec) :
    Exactly (readEnveloped set (Codec.array type element).read)
      (SetItem (.array type element)) where
  gives := by
    refine (gives_skip 4).bind fun reserved _ four => ?_
    refine exactly_int32.gives.bind fun _ count spelled => ?_
    subst spelled
    split
    case isFalse => exact gives_throw _
    case isTrue one =>
      subst one
      refine (gives_skip 4).bind fun flags _ flagged => ?_
      refine Gives.map ((exactly_array type element).gives.mono ?_)
      rintro content _ ⟨elements, rfl, laid⟩
      exact .enveloped four flagged laid
  takes := by
    intro bytes slot laid
    cases laid with
    | plain unwrapped => simp [isEnveloped] at unwrapped
    | enveloped four flagged laid =>
        have taken := (exactly_array type element).takes ⟨_, rfl, laid⟩
        refine (takes_skip four).bind ?_
        refine (takes_int32 1).bind ?_
        exact (takes_skip flagged).bind (taken.map some)

theorem exactly_setItems (type : Uuid) (element : Codec) (length : Nat) :
    Exactly
      (if element.isEnveloped then do
        let slots ← repeated (readEnveloped type element.read) length
        pure (Value.set slots)
      else do
        let slots ← repeated (do let payload ← byteArray; readWithin element.read payload) length
        pure (Value.set slots))
      fun bytes value => ∃ slots,
        (∃ chunks, bytes = chunks.flatten ∧ slots.length = length ∧
          List.Forall₂ (SetItem element) chunks slots) ∧ value = .set slots := by
  split
  case isFalse unwrapped =>
    exact (exactly_numbered (fun _ => exactly_plain (Bool.eq_false_iff.2 unwrapped)) length).map _
  case isTrue wrapped =>
    cases element with
    | array inner element =>
        exact (exactly_numbered (fun _ => exactly_enveloped type inner element) length).map _
    | _ => simp [isEnveloped] at wrapped

theorem gives_set (type : Uuid) (element : Codec) :
    Gives (Codec.set type element).read fun bytes value =>
      ∃ slots, value = .set slots ∧ SetLayout element bytes slots := by
  refine exactly_int32.gives.bind fun _ dimensions spelled => ?_
  subst spelled
  split
  case isTrue zero =>
    subst zero
    refine gives_atEnd.bind fun _ ended nothing => ?_
    subst nothing
    dsimp only
    split
    case isTrue =>
      refine gives_pure ⟨[], rfl, ?_⟩
      simpa using SetLayout.bare
    case isFalse =>
      refine (gives_skip 8).bind fun reserved _ eight => ?_
      refine gives_pure ⟨[], rfl, ?_⟩
      simpa using SetLayout.empty eight
  case isFalse =>
    split
    case isFalse => exact gives_throw _
    case isTrue one =>
      subst one
      refine (gives_skip 8).bind fun reserved _ eight => ?_
      refine (exactly_readLength type).gives.bind fun bounds length bounded => ?_
      refine (exactly_setItems type element length).gives.mono ?_
      rintro _ _ ⟨slots, ⟨chunks, rfl, rfl, each⟩, rfl⟩
      exact ⟨slots, rfl, .filled eight bounded each⟩

theorem takesAll_set (type : Uuid) {element : Codec} {bytes : List UInt8}
    {slots : List (Option Value)} (laid : SetLayout element bytes slots) :
    TakesAll (Codec.set type element).read bytes (.set slots) := by
  cases laid with
  | bare =>
      rw [← List.append_nil (int32Bytes 0)]
      exact (takes_int32 0).bindAll fun _ => rfl
  | @empty reserved eight =>
      refine (takes_int32 0).bindAll fun behind => ?_
      have more : atEnd ⟨behind, reserved⟩ = .ok false ⟨behind, reserved⟩ := by
        cases reserved with
        | nil => simp at eight
        | cons => rfl
      refine (Fallible.bind_apply_ok more).trans ?_
      exact ((takes_skip eight).then (takes_pure (Value.set []))).takesAll behind
  | @filled _ _ chunks _ eight bounded each =>
      have items := (exactly_setItems type element _).takes ⟨_, ⟨chunks, rfl, rfl, each⟩, rfl⟩
      refine ((takes_int32 1).bind ?_).takesAll
      exact (takes_skip eight).bind (((exactly_readLength type).takes bounded).bind items)

/-! ## Tuples -/

theorem exactly_slot (codec : Codec) :
    Exactly (readSlot codec.read) fun bytes slot => ∃ reserved item,
      bytes = reserved ++ item ∧ reserved.length = 4 ∧ codec.Item (· < 0) item slot where
  gives := by
    refine (gives_skip 4).bind fun reserved _ four => ?_
    refine (exactly_item exactly_element codec).gives.mono ?_
    intro item slot laid
    exact ⟨reserved, item, rfl, four, laid⟩
  takes := by
    rintro _ slot ⟨reserved, item, rfl, four, laid⟩
    exact (takes_skip four).bind ((exactly_item exactly_element codec).takes laid)

theorem exactly_slots (codecs : List Codec) (done : List (Option Value)) :
    Exactly (readSlots codecs done) fun bytes slots =>
      ∃ more, slots = done.reverse ++ more ∧ SlotsLayout codecs bytes more := by
  induction codecs generalizing done with
  | nil =>
      refine ⟨gives_pure ⟨[], (List.append_nil _).symm, .nil⟩, ?_⟩
      rintro bytes _ ⟨more, rfl, laid⟩
      cases laid
      rw [List.append_nil]
      exact takes_pure done.reverse
  | cons codec codecs ih =>
      constructor
      case gives =>
        refine (exactly_slot codec).gives.bind fun _ slot laid => ?_
        obtain ⟨reserved, item, rfl, four, laid⟩ := laid
        refine (ih (slot :: done)).gives.mono ?_
        rintro rest _ ⟨more, rfl, others⟩
        exact ⟨slot :: more, by simp, .cons four laid others⟩
      case takes =>
        rintro bytes _ ⟨more, rfl, laid⟩
        cases laid with
        | @cons _ _ _ _ _ slot slots four item others =>
            refine ((exactly_slot codec).takes ⟨_, _, rfl, four, item⟩).bind ?_
            simpa using (ih (slot :: done)).takes ⟨slots, rfl, others⟩

theorem exactly_tuple (type : Uuid) (codecs : List Codec) :
    Exactly (Codec.tuple type codecs).read fun bytes value =>
      ∃ slots, value = .tuple slots ∧ TupleLayout codecs bytes slots where
  gives := by
    refine exactly_int32.gives.bind fun _ count spelled => ?_
    subst spelled
    split
    case isFalse => exact gives_throw _
    case isTrue arity =>
      refine Gives.map ((exactly_slots codecs []).gives.mono ?_)
      rintro rest _ ⟨slots, rfl, laid⟩
      exact ⟨_, rfl, .mk arity laid⟩
  takes := by
    rintro bytes _ ⟨slots, rfl, laid⟩
    cases laid with
    | mk arity laid =>
        refine (takes_int32 _).bind ?_
        rw [if_pos arity]
        exact ((exactly_slots codecs []).takes ⟨_, rfl, laid⟩).then (takes_pure _)

/-! ## Decoding by layout -/

theorem decode_iff_of_layout {α : Type} {layout : List UInt8 → α → Prop} {view : α → Value}
    (gives : Gives codec.read fun bytes value => ∃ items, value = view items ∧ layout bytes items)
    (takes : ∀ bytes items, layout bytes items → TakesAll codec.read bytes (view items))
    (bytes : List UInt8) (result : Option Value) :
    codec.decode (some bytes) = .ok result ↔
      ∃ items, result = some (view items) ∧ layout bytes items := by
  rw [decode]
  constructor
  · intro decoded
    split at decoded
    case h_2 => simp at decoded
    case h_1 value done =>
      obtain rfl := Except.ok.inj decoded
      obtain ⟨items, rfl, laid⟩ := gives.of_run_whole done
      exact ⟨items, rfl, laid⟩
  · rintro ⟨items, rfl, laid⟩
    rw [(takes bytes items laid).run_whole]

/-- A set, an array and a tuple are each decoded from the byte strings of their layout, as what the
layout holds, and from no others. -/
theorem decode_iff_layout (type : Uuid) (bytes : List UInt8) (result : Option Value) :
    (∀ element, (Codec.set type element).decode (some bytes) = .ok result ↔
      ∃ slots, result = some (.set slots) ∧ SetLayout element bytes slots) ∧
    (∀ element, (Codec.array type element).decode (some bytes) = .ok result ↔
      ∃ elements, result = some (.array elements) ∧ ArrayLayout element bytes elements) ∧
    ∀ codecs, (Codec.tuple type codecs).decode (some bytes) = .ok result ↔
      ∃ slots, result = some (.tuple slots) ∧ TupleLayout codecs bytes slots := by
  refine ⟨?_, ?_, ?_⟩
  · intro element
    refine decode_iff_of_layout (gives_set type element) ?_ bytes result
    intro bytes slots laid
    exact takesAll_set type laid
  · intro element
    have exact := exactly_array type element
    refine decode_iff_of_layout exact.gives ?_ bytes result
    intro bytes elements laid
    exact (exact.takes ⟨elements, rfl, laid⟩).takesAll
  · intro codecs
    have exact := exactly_tuple type codecs
    refine decode_iff_of_layout exact.gives ?_ bytes result
    intro bytes slots laid
    exact (exact.takes ⟨slots, rfl, laid⟩).takesAll

end Codec
end SchemaWire
