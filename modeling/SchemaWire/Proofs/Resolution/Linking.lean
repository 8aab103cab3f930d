import SchemaWire.Proofs.Resolution.Outcome

/-!
# What codecs are made of

A resolved descriptor holds the codec that is known for its type, if there is one.  If not, it holds
a codec of its own type, and the elements of that are codecs which earlier descriptors hold.  So all
codecs that a stream builds are of the types under which they are built, and their elements are
built by the stream as well.
-/

namespace SchemaWire

/-- The codecs that a codec holds for the values inside its own. -/
def Codec.elements : Codec → List Codec
  | .set _ element | .array _ element => [element]
  | .tuple _ elements => elements
  | _ => []

open Descriptor Fallible

variable {descriptor : Descriptor} {codec element : Codec} {type : Uuid}

/-! ## One descriptor -/

/-- A base scalar is of its type and holds no codecs. -/
theorem base_eq_some (registered : Base.codec? type = some codec) :
    codec.typeId = type ∧ codec.elements = [] := by
  rw [Base.codec?] at registered
  split at registered
  case isTrue same =>
    obtain rfl := Option.some.inj registered
    exact ⟨same.symm, rfl⟩
  case isFalse =>
    split at registered
    case isTrue same =>
      obtain rfl := Option.some.inj registered
      exact ⟨same.symm, rfl⟩
    case isFalse =>
      obtain ⟨kind, -, rfl⟩ := Option.map_eq_some_iff.1 registered
      exact ⟨rfl, rfl⟩

/-- A codec under another type is of that type and holds no codecs. -/
theorem renamed_eq_some {derived : Codec} (renamed : codec.renamed type = some derived) :
    derived.typeId = type ∧ derived.elements = [] := by
  cases codec with
  | scalar | timestamp | enumeration =>
      obtain rfl := Option.some.inj renamed
      exact ⟨rfl, rfl⟩
  | set | array | tuple => simp [Codec.renamed] at renamed

theorem typeId_of_codecFrom {codecs : UInt16 → Option Codec}
    (denoted : descriptor.codecFrom codecs = some codec) : codec.typeId = descriptor.id := by
  cases descriptor with
  | baseScalar id => exact (base_eq_some denoted).1
  | scalar id base =>
      obtain ⟨inner, -, renamed⟩ := Option.bind_eq_some_iff.1 denoted
      exact (renamed_eq_some renamed).1
  | enumeration id members =>
      obtain rfl := Option.some.inj denoted
      rfl
  | set id inner =>
      obtain ⟨_, -, rfl⟩ := Option.map_eq_some_iff.1 denoted
      rfl
  | array id inner dimensions =>
      rw [codecFrom] at denoted
      split at denoted
      case isTrue =>
        obtain ⟨_, -, rfl⟩ := Option.map_eq_some_iff.1 denoted
        rfl
      case isFalse => simp at denoted
  | tuple id elements =>
      obtain ⟨_, -, rfl⟩ := Option.map_eq_some_iff.1 denoted
      rfl
  | objectShape | namedTuple | inputShape | range | remark => simp [codecFrom] at denoted

/-- The elements of the codec of a descriptor are among those to which it refers. -/
theorem exists_of_mem_elements {codecs : UInt16 → Option Codec}
    (denoted : descriptor.codecFrom codecs = some codec) (inside : element ∈ codec.elements) :
    ∃ back, codecs back = some element := by
  cases descriptor with
  | baseScalar id => simp [(base_eq_some denoted).2] at inside
  | scalar id base =>
      obtain ⟨inner, -, renamed⟩ := Option.bind_eq_some_iff.1 denoted
      simp [(renamed_eq_some renamed).2] at inside
  | enumeration id members =>
      obtain rfl := Option.some.inj denoted
      simp [Codec.elements] at inside
  | set id inner =>
      obtain ⟨own, there, rfl⟩ := Option.map_eq_some_iff.1 denoted
      obtain rfl : element = own := by simpa [Codec.elements] using inside
      exact ⟨inner, there⟩
  | array id inner dimensions =>
      rw [codecFrom] at denoted
      split at denoted
      case isTrue =>
        obtain ⟨own, there, rfl⟩ := Option.map_eq_some_iff.1 denoted
        obtain rfl : element = own := by simpa [Codec.elements] using inside
        exact ⟨inner, there⟩
      case isFalse => simp at denoted
  | tuple id backs =>
      obtain ⟨own, there, rfl⟩ := Option.map_eq_some_iff.1 denoted
      obtain ⟨length, each⟩ := List.forall₂_iff_get.1 (mapM_eq_some_iff.1 there)
      rw [Codec.elements] at inside
      obtain ⟨position, within, rfl⟩ := List.mem_iff_getElem.1 inside
      exact ⟨_, each position (by rwa [length]) within⟩
  | objectShape | namedTuple | inputShape | range | remark => simp [codecFrom] at denoted

namespace Resolution

variable {known : Uuid → Option Codec} {stream : List Descriptor} {slots : Array Slot} {slot : Slot}

/-- What is known under a type is a codec of that type. -/
def Keyed (known : Uuid → Option Codec) : Prop :=
  ∀ type held, known type = some held → held.typeId = type

/-- What the slot of a descriptor holds, after other slots. -/
structure Stands (known : Uuid → Option Codec) (slots : Array Slot) (descriptor : Descriptor)
    (slot : Slot) : Prop where
  /-- There is no codec for a remark. -/
  silent : descriptor.isRemark = true → slot.codec? = none
  /-- There is one if the descriptor is of a kind that has codecs. -/
  coded : descriptor.isCoded = true → ∃ codec, slot.codec? = some codec
  /-- It is of the type of the descriptor. -/
  typed : ∀ codec, slot.codec? = some codec → codec.typeId = descriptor.id
  /-- It is the known one of that type, if there is one. -/
  reused : ∀ held, descriptor.isRemark = false → known descriptor.id = some held →
    slot.codec? = some held
  /-- If there is none, the descriptor is of a kind that has codecs, and the elements of its codec
  are codecs in the other slots. -/
  made : ∀ codec, slot.codec? = some codec → known descriptor.id = none →
    descriptor.isCoded = true ∧ ∀ element ∈ codec.elements, ∃ (back : Nat) (other : Slot),
      slots[back]? = some other ∧ other.codec? = some element

theorem isRemark_of_isCoded (coded : descriptor.isCoded = true) :
    descriptor.isRemark = false := by
  cases descriptor with
  | remark => simp [isCoded] at coded
  | _ => rfl

theorem stands_of_build (built : build slots descriptor = .ok slot)
    (unknown : descriptor.isRemark = false → known descriptor.id = none) :
    Stands known slots descriptor slot := by
  have reused : ∀ held, descriptor.isRemark = false → known descriptor.id = some held →
      slot.codec? = some held := by
    intro held told there
    simp [unknown told] at there
  cases coded : descriptor.isCoded with
  | false =>
      obtain ⟨_, again, empty⟩ := @build_of_not_coded _ slots coded
      obtain rfl := Except.ok.inj (built.symm.trans again)
      refine ⟨?_, by simp [coded], by simp [empty], reused, by simp [empty]⟩
      intro _
      exact empty
  | true =>
      have told : descriptor.isRemark ≠ true := by simp [isRemark_of_isCoded coded]
      let codecs := fun back : UInt16 => slots[back.toNat]?.bind Slot.codec?
      obtain ⟨codec, rfl, denoted⟩ := @codecFrom_of_build _ slots _ codecs coded
        (fun _ _ found => Option.bind_eq_some_iff.2 (codecAt_eq_ok_iff.1 found)) built
      refine ⟨?_, ?_, ?_, reused, ?_⟩
      · intro marked
        exact absurd marked told
      · intro _
        exact ⟨codec, rfl⟩
      · rintro _ ⟨⟩
        exact typeId_of_codecFrom denoted
      · rintro _ ⟨⟩ -
        refine ⟨coded, ?_⟩
        intro element inside
        obtain ⟨back, found⟩ := exists_of_mem_elements denoted inside
        exact ⟨back.toNat, Option.bind_eq_some_iff.1 found⟩

theorem stands_of_resolve (keyed : Keyed known)
    (resolved : resolve known slots descriptor = .ok slot) :
    Stands known slots descriptor slot := by
  rw [resolve] at resolved
  split at resolved
  case h_1 held told there =>
    obtain rfl := Except.ok.inj resolved
    refine ⟨by simp [told], ?_, ?_, ?_, ?_⟩
    · intro _
      exact ⟨held, rfl⟩
    · rintro _ ⟨⟩
      exact keyed _ _ there
    · intro other _ again
      exact there.symm.trans again
    · intro _ _ absent
      simp [there] at absent
  case h_2 other =>
    refine stands_of_build resolved fun told => ?_
    cases there : known descriptor.id with
    | none => rfl
    | some held => exact absurd there (other held told)

/-! ## A stream -/

/-- All slots so far stand for the descriptors at their positions. -/
def Linked (known : Uuid → Option Codec) (stream : List Descriptor) (slots : Array Slot) : Prop :=
  ∀ (position : Nat) (descriptor : Descriptor) (slot : Slot), stream[position]? = some descriptor →
    slots[position]? = some slot → Stands known slots descriptor slot

theorem Stands.push (stands : Stands known slots descriptor slot) (next : Slot) :
    Stands known (slots.push next) descriptor slot := by
  refine ⟨stands.silent, stands.coded, stands.typed, stands.reused, ?_⟩
  intro codec held absent
  obtain ⟨coded, linked⟩ := stands.made codec held absent
  refine ⟨coded, ?_⟩
  intro element inside
  obtain ⟨back, other, there, found⟩ := linked element inside
  obtain ⟨before, -⟩ := Array.getElem?_eq_some_iff.1 there
  refine ⟨back, other, ?_, found⟩
  rwa [Array.getElem?_push_lt before, ← Array.getElem?_eq_getElem]

theorem Linked.push (linked : Linked known stream slots)
    (present : stream[slots.size]? = some descriptor)
    (next : Stands known slots descriptor slot) : Linked known stream (slots.push slot) := by
  intro position other held there filled
  rw [Array.getElem?_push] at filled
  split at filled
  case isTrue last =>
    obtain rfl := Option.some.inj filled
    rw [last] at there
    obtain rfl := Option.some.inj (present.symm.trans there)
    exact next.push slot
  case isFalse => exact (linked position other held there filled).push slot

theorem linked_of_resolveAll (keyed : Keyed known) {rest : List Descriptor} {final : Array Slot}
    (left : stream.drop slots.size = rest) (linked : Linked known stream slots)
    (done : resolveAll known slots rest = .ok final) :
    final.size = slots.size + rest.length ∧ Linked known stream final := by
  induction rest generalizing slots with
  | nil =>
      obtain rfl := Except.ok.inj done
      exact ⟨rfl, linked⟩
  | cons descriptor rest ih =>
      obtain ⟨present, left⟩ := drop_eq_cons left
      rw [resolveAll] at done
      split at done
      case h_2 => simp at done
      case h_1 slot resolved =>
        rw [← Array.size_push slot] at left
        have next := stands_of_resolve keyed resolved
        obtain ⟨size, linked⟩ := ih left (linked.push present next) done
        refine ⟨?_, linked⟩
        rw [size, Array.size_push, List.length_cons, Nat.add_assoc, Nat.add_comm 1]

/-- What a whole stream resolves to. -/
theorem linked_of_stream (keyed : Keyed known) (done : resolveAll known #[] stream = .ok slots) :
    slots.size = stream.length ∧ Linked known stream slots := by
  have fresh : Linked known stream #[] := by
    intro position descriptor slot _ filled
    simp at filled
  obtain ⟨size, linked⟩ := linked_of_resolveAll keyed rfl fresh done
  exact ⟨by simpa using size, linked⟩

/-! ## What is built -/

/-- The codecs that a stream builds are those of their types, the known ones first of all, and
their elements are built as well. -/
structure Sound (known : Uuid → Option Codec) (codecs : List (Uuid × Codec)) : Prop where
  /-- A codec is built under its own type. -/
  typed : ∀ type codec, (type, codec) ∈ codecs → codec.typeId = type
  /-- It is the known one of its type, if there is one. -/
  reused : ∀ type codec held, (type, codec) ∈ codecs → known type = some held → codec = held
  /-- If not, its elements are built under their own types. -/
  linked : ∀ type codec, (type, codec) ∈ codecs → known type = none →
    ∀ element ∈ codec.elements, (element.typeId, element) ∈ codecs

theorem exists_descriptor {position : Nat} (paired : slots.size = stream.length)
    (filled : slots[position]? = some slot) :
    ∃ descriptor, stream[position]? = some descriptor := by
  obtain ⟨within, -⟩ := Array.getElem?_eq_some_iff.1 filled
  exact ⟨_, List.getElem?_eq_getElem (paired ▸ within)⟩

theorem Stands.not_isRemark (stands : Stands known slots descriptor slot)
    (held : slot.codec? = some codec) : descriptor.isRemark = false := by
  cases told : descriptor.isRemark with
  | false => rfl
  | true => simp [stands.silent told] at held

theorem Linked.sound (linked : Linked known stream slots) (paired : slots.size = stream.length) :
    Sound known (built (stream.zip slots.toList)) := by
  have stands {type : Uuid} {codec : Codec}
      (member : (type, codec) ∈ built (stream.zip slots.toList)) :
      ∃ descriptor slot, descriptor.id = type ∧ slot.codec? = some codec ∧
        Stands known slots descriptor slot := by
    obtain ⟨position, descriptor, slot, present, filled, named, own⟩ := mem_built_iff.1 member
    exact ⟨descriptor, slot, named, own, linked position descriptor slot present filled⟩
  refine ⟨?_, ?_, ?_⟩
  · intro type codec member
    obtain ⟨descriptor, slot, rfl, own, stands⟩ := stands member
    exact stands.typed codec own
  · intro type codec held member there
    obtain ⟨descriptor, slot, rfl, own, stands⟩ := stands member
    have known := stands.reused held (stands.not_isRemark own) there
    exact Option.some.inj (own.symm.trans known)
  · intro type codec member absent element inside
    obtain ⟨descriptor, slot, rfl, own, stands⟩ := stands member
    obtain ⟨back, other, earlier, found⟩ := (stands.made codec own absent).2 element inside
    obtain ⟨source, there⟩ := exists_descriptor paired earlier
    have same := (linked back source other there earlier).typed element found
    exact mem_built_iff.2 ⟨back, source, other, there, earlier, same.symm, found⟩

/-- The first codec that is built for a type with a known one is the known one. -/
theorem Sound.lookup_of_known {codecs : List (Uuid × Codec)} {held : Codec}
    (sound : Sound known codecs) (member : (type, codec) ∈ codecs)
    (there : known type = some held) : codecs.lookup type = some held := by
  obtain ⟨first, found⟩ := Option.isSome_iff_exists.1 (lookup_isSome_iff_mem.2 ⟨codec, member⟩)
  rw [found, sound.reused type first held (mem_of_lookup found) there]

end Resolution
end SchemaWire
