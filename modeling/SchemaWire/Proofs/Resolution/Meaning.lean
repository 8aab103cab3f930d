import SchemaWire.Cache
import SchemaWire.Proofs.Fallible

/-!
# What descriptors denote

A stream is resolved one descriptor after the other.  What its descriptors mean can be said without
that: each denotes a codec over those that earlier descriptors denote, by recursion on its position.
A descriptor that has no codec, or refers to one that has none or does not come earlier, denotes
nothing.

Resolving fills a slot for each position, with what is denoted there; codecs known from elsewhere
may fill those of positions that denote nothing.
-/

namespace SchemaWire

/-- The codec of a type that is derived from the type of a scalar or an enumeration. -/
def Codec.renamed (type : Uuid) : Codec → Option Codec
  | .scalar _ kind => some (.scalar type kind)
  | .timestamp _ inner kind => some (.timestamp type inner kind)
  | .enumeration _ members => some (.enumeration type members)
  | _ => none

/-- A timestamp stands over a scalar. -/
def Codec.Founded : Codec → Prop
  | .timestamp _ inner _ => inner.isScalar = true
  | _ => True

namespace Descriptor

/-- Whether a descriptor is of a kind that has codecs. -/
def isCoded : Descriptor → Bool
  | .baseScalar _ | .scalar _ _ | .enumeration _ _ | .set _ _ | .array _ _ _ | .tuple _ _ => true
  | _ => false

/-- The codec of a descriptor over the codecs of those to which it refers. -/
def codecFrom (codecs : UInt16 → Option Codec) : Descriptor → Option Codec
  | .baseScalar id => Base.codec? id
  | .scalar id base => (codecs base).bind (Codec.renamed id)
  | .enumeration id members => some (.enumeration id members)
  | .set id element => (codecs element).map (.set id)
  | .array id element dimensions =>
      if dimensions.length = 1 then (codecs element).map (.array id) else none
  | .tuple id elements => (elements.mapM codecs).map (.tuple id)
  | _ => none

/-- The codec that the descriptor at a position of a stream denotes. -/
def meaning (stream : List Descriptor) (position : Nat) : Option Codec :=
  match stream[position]? with
  | none => none
  | some descriptor =>
      descriptor.codecFrom fun back =>
        if _earlier : back.toNat < position then meaning stream back.toNat else none
termination_by position

/-- A position has a descriptor that is no remark, and only remarks follow. -/
def IsRoot (stream : List Descriptor) (position : Nat) : Prop :=
  ∃ front descriptor remarks, stream = front ++ descriptor :: remarks ∧
    front.length = position ∧ descriptor.isRemark = false ∧
      ∀ remark ∈ remarks, remark.isRemark = true

/-- What is denoted at a position, if that comes before another one. -/
def earlier (stream : List Descriptor) (position : Nat) (back : UInt16) : Option Codec :=
  if back.toNat < position then meaning stream back.toNat else none

end Descriptor

open Descriptor Fallible

variable {stream : List Descriptor} {descriptor : Descriptor} {position : Nat} {codec : Codec}
  {type : Uuid}

/-! ## Meanings -/

theorem meaning_eq_codecFrom (present : stream[position]? = some descriptor) :
    meaning stream position = descriptor.codecFrom (earlier stream position) := by
  rw [meaning, present]
  rfl

theorem exists_of_meaning (denoted : meaning stream position = some codec) :
    ∃ descriptor, stream[position]? = some descriptor ∧ descriptor.isCoded = true := by
  cases present : stream[position]? with
  | none => simp [meaning, present] at denoted
  | some descriptor =>
      rw [meaning_eq_codecFrom present] at denoted
      cases descriptor with
      | objectShape | namedTuple | inputShape | range | remark => simp [codecFrom] at denoted
      | _ => exact ⟨_, rfl, rfl⟩

theorem meaning_of_not_coded (present : stream[position]? = some descriptor)
    (uncoded : descriptor.isCoded = false) : meaning stream position = none := by
  cases denoted : meaning stream position with
  | none => rfl
  | some codec =>
      obtain ⟨_, found, coded⟩ := exists_of_meaning denoted
      obtain rfl := Option.some.inj (present.symm.trans found)
      simp [uncoded] at coded

theorem meaning_of_remark (present : stream[position]? = some descriptor)
    (told : descriptor.isRemark = true) : meaning stream position = none := by
  refine meaning_of_not_coded present ?_
  cases descriptor with
  | remark => rfl
  | _ => simp [isRemark] at told

theorem founded_of_base (registered : Base.codec? type = some codec) : codec.Founded := by
  rw [Base.codec?] at registered
  split at registered
  case isTrue =>
    obtain rfl := Option.some.inj registered
    rfl
  case isFalse =>
    split at registered
    case isTrue =>
      obtain rfl := Option.some.inj registered
      rfl
    case isFalse =>
      obtain ⟨kind, -, rfl⟩ := Option.map_eq_some_iff.1 registered
      trivial

theorem founded_of_renamed {derived : Codec} (founded : codec.Founded)
    (renamed : codec.renamed type = some derived) : derived.Founded := by
  cases codec with
  | scalar | enumeration =>
      obtain rfl := Option.some.inj renamed
      trivial
  | timestamp _ inner kind =>
      obtain rfl := Option.some.inj renamed
      exact founded
  | set | array | tuple => simp [Codec.renamed] at renamed

theorem founded_of_codecFrom {codecs : UInt16 → Option Codec}
    (founded : ∀ back codec, codecs back = some codec → codec.Founded)
    (built : descriptor.codecFrom codecs = some codec) : codec.Founded := by
  cases descriptor with
  | baseScalar id => exact founded_of_base built
  | scalar id base =>
      obtain ⟨inner, found, renamed⟩ := Option.bind_eq_some_iff.1 built
      exact founded_of_renamed (founded base inner found) renamed
  | enumeration id members =>
      obtain rfl := Option.some.inj built
      trivial
  | set id element =>
      obtain ⟨_, -, rfl⟩ := Option.map_eq_some_iff.1 built
      trivial
  | array id element dimensions =>
      rw [codecFrom] at built
      split at built
      case isTrue =>
        obtain ⟨_, -, rfl⟩ := Option.map_eq_some_iff.1 built
        trivial
      case isFalse => simp at built
  | tuple id elements =>
      obtain ⟨_, -, rfl⟩ := Option.map_eq_some_iff.1 built
      trivial
  | objectShape | namedTuple | inputShape | range | remark => simp [codecFrom] at built

theorem founded_of_meaning (denoted : meaning stream position = some codec) :
    codec.Founded := by
  induction position using Nat.strongRecOn generalizing codec with
  | ind position ih =>
      obtain ⟨descriptor, present, -⟩ := exists_of_meaning denoted
      rw [meaning_eq_codecFrom present] at denoted
      refine founded_of_codecFrom ?_ denoted
      intro back inner found
      rw [earlier] at found
      split at found
      case isTrue before => exact ih back.toNat before found
      case isFalse => simp at found

/-! ## Resolving one descriptor -/

namespace Resolution

variable {known : Uuid → Option Codec} {slots : Array Slot} {slot : Slot} {back : UInt16}

theorem derive_of_renamed {derived : Codec} (founded : codec.Founded)
    (renamed : codec.renamed type = some derived) : codec.derive type = .ok derived := by
  cases codec with
  | scalar | enumeration => exact congrArg Except.ok (Option.some.inj renamed)
  | timestamp _ inner kind =>
      have scalar : inner.isScalar = true := founded
      rw [Codec.derive, Codec.adapt, if_pos scalar]
      exact congrArg Except.ok (Option.some.inj renamed)
  | set | array | tuple => simp [Codec.renamed] at renamed

theorem renamed_of_derive {derived : Codec} (built : codec.derive type = .ok derived) :
    codec.renamed type = some derived := by
  cases codec with
  | scalar | enumeration => exact congrArg some (Except.ok.inj built)
  | timestamp _ inner kind =>
      rw [Codec.derive, Codec.adapt] at built
      split at built
      case isTrue => exact congrArg some (Except.ok.inj built)
      case isFalse => simp at built
  | set | array | tuple => simp [Codec.derive] at built

theorem codecFor_eq_ok_iff : slot.codecFor type = .ok codec ↔ slot.codec? = some codec := by
  cases slot <;> simp [Slot.codecFor, Slot.codec?]

theorem codecAt_eq_ok_iff :
    codecAt slots type back = .ok codec ↔
      ∃ slot, slots[back.toNat]? = some slot ∧ slot.codec? = some codec := by
  rw [codecAt]
  cases slots[back.toNat]? with
  | none => simp
  | some slot => simp [codecFor_eq_ok_iff]

/-- A descriptor is resolved to the codec it has over codecs that its references find. -/
theorem build_of_codecFrom {codecs : UInt16 → Option Codec}
    (found : ∀ back codec, codecs back = some codec →
      codec.Founded ∧ codecAt slots descriptor.id back = .ok codec)
    (denoted : descriptor.codecFrom codecs = some codec) :
    build slots descriptor = .ok (.codec codec) := by
  cases descriptor with
  | baseScalar id =>
      have registered : Base.codec? id = some codec := denoted
      simp [build, registered]
  | scalar id base =>
      obtain ⟨inner, there, renamed⟩ := Option.bind_eq_some_iff.1 denoted
      obtain ⟨founded, reached⟩ := found base inner there
      refine bind_eq_ok_iff.2 ⟨inner, reached, ?_⟩
      exact bind_eq_ok_iff.2 ⟨codec, derive_of_renamed founded renamed, rfl⟩
  | enumeration id members =>
      obtain rfl := Option.some.inj denoted
      rfl
  | set id element =>
      obtain ⟨inner, there, rfl⟩ := Option.map_eq_some_iff.1 denoted
      exact bind_eq_ok_iff.2 ⟨inner, (found element inner there).2, rfl⟩
  | array id element dimensions =>
      rw [codecFrom] at denoted
      split at denoted
      case isTrue single =>
        obtain ⟨inner, there, rfl⟩ := Option.map_eq_some_iff.1 denoted
        rw [build, if_pos single]
        exact bind_eq_ok_iff.2 ⟨inner, (found element inner there).2, rfl⟩
      case isFalse => simp at denoted
  | tuple id elements =>
      obtain ⟨inner, there, rfl⟩ := Option.map_eq_some_iff.1 denoted
      refine bind_eq_ok_iff.2 ⟨inner, mapM_eq_ok_iff.2 ?_, rfl⟩
      refine (mapM_eq_some_iff.1 there).imp ?_
      intro back codec held
      exact (found back codec held).2
  | objectShape | namedTuple | inputShape | range | remark => simp [codecFrom] at denoted

/-- A descriptor that is resolved has a codec over any codecs that are there for its references. -/
theorem codecFrom_of_build {codecs : UInt16 → Option Codec} (coded : descriptor.isCoded = true)
    (found : ∀ back codec, codecAt slots descriptor.id back = .ok codec → codecs back = some codec)
    (built : build slots descriptor = .ok slot) :
    ∃ codec, slot = .codec codec ∧ descriptor.codecFrom codecs = some codec := by
  cases descriptor with
  | baseScalar id =>
      rw [build] at built
      split at built
      case h_1 codec registered =>
        obtain rfl := Except.ok.inj built
        exact ⟨codec, rfl, registered⟩
      case h_2 => simp at built
  | scalar id base =>
      obtain ⟨inner, reached, rest⟩ := bind_eq_ok_iff.1 built
      obtain ⟨codec, derived, made⟩ := bind_eq_ok_iff.1 rest
      obtain rfl := Except.ok.inj made
      refine ⟨codec, rfl, Option.bind_eq_some_iff.2 ?_⟩
      exact ⟨inner, found base inner reached, renamed_of_derive derived⟩
  | enumeration id members =>
      obtain rfl := Except.ok.inj built
      exact ⟨_, rfl, rfl⟩
  | set id element =>
      obtain ⟨inner, reached, made⟩ := bind_eq_ok_iff.1 built
      obtain rfl := Except.ok.inj made
      exact ⟨_, rfl, Option.map_eq_some_iff.2 ⟨inner, found element inner reached, rfl⟩⟩
  | array id element dimensions =>
      rw [build] at built
      split at built
      case isTrue single =>
        obtain ⟨inner, reached, made⟩ := bind_eq_ok_iff.1 built
        obtain rfl := Except.ok.inj made
        refine ⟨_, rfl, ?_⟩
        rw [codecFrom, if_pos single, found element inner reached, Option.map_some]
      case isFalse => simp at built
  | tuple id elements =>
      obtain ⟨inner, reached, made⟩ := bind_eq_ok_iff.1 built
      obtain rfl := Except.ok.inj made
      refine ⟨_, rfl, Option.map_eq_some_iff.2 ⟨inner, mapM_eq_some_iff.2 ?_, rfl⟩⟩
      exact (mapM_eq_ok_iff.1 reached).imp (found · ·)
  | objectShape | namedTuple | inputShape | range | remark => simp [isCoded] at coded

theorem build_of_not_coded (uncoded : descriptor.isCoded = false) :
    ∃ slot, build slots descriptor = .ok slot ∧ slot.codec? = none := by
  cases descriptor with
  | objectShape | namedTuple | inputShape | range | remark => exact ⟨_, rfl, rfl⟩
  | _ => simp [isCoded] at uncoded

/-- A descriptor is built, or the codec is taken that is known for its type. -/
theorem resolve_cases (known : Uuid → Option Codec) (slots : Array Slot)
    (descriptor : Descriptor) :
    resolve known slots descriptor = build slots descriptor ∨
      ∃ held, descriptor.isRemark = false ∧ known descriptor.id = some held ∧
        resolve known slots descriptor = .ok (.codec held) := by
  rw [resolve]
  split
  case h_1 held told there => exact .inr ⟨held, told, there, rfl⟩
  case h_2 => exact .inl rfl

/-! ## Slots -/

/-- What fills the slot of a position: the codec denoted there, or a known one where there is
none. -/
def Fills (known : Uuid → Option Codec) (stream : List Descriptor) (position : Nat)
    (slot : Slot) : Prop :=
  slot.codec? = meaning stream position ∨
    meaning stream position = none ∧
      ∃ descriptor held, stream[position]? = some descriptor ∧ known descriptor.id = some held

/-- All slots so far are filled. -/
def Filled (known : Uuid → Option Codec) (stream : List Descriptor) (slots : Array Slot) : Prop :=
  ∀ position slot, slots[position]? = some slot → Fills known stream position slot

theorem filled_empty : Filled known stream #[] := by
  intro position slot present
  simp at present

theorem Filled.push (filled : Filled known stream slots)
    (next : Fills known stream slots.size slot) : Filled known stream (slots.push slot) := by
  intro position other present
  rw [Array.getElem?_push] at present
  split at present
  case isTrue last =>
    obtain rfl := Option.some.inj present
    rwa [last]
  case isFalse => exact filled position other present

theorem Fills.codec?_eq (fills : Fills known stream position slot)
    (denoted : meaning stream position = some codec) : slot.codec? = some codec := by
  rcases fills with same | ⟨none, -⟩
  · rw [same, denoted]
  · simp [none] at denoted

/-- Without known codecs, the slots hold just what is denoted. -/
theorem Filled.codec?_eq_meaning (filled : Filled (fun _ => none) stream slots)
    (present : slots[position]? = some slot) : slot.codec? = meaning stream position := by
  rcases filled position slot present with same | ⟨-, _, _, -, absent⟩
  · exact same
  · simp at absent

theorem Filled.codecAt_of_earlier (filled : Filled known stream slots)
    (found : earlier stream slots.size back = some codec) :
    codec.Founded ∧ codecAt slots type back = .ok codec := by
  rw [earlier] at found
  split at found
  case isTrue before =>
    have present : slots[back.toNat]? = some slots[back.toNat] := Array.getElem?_eq_getElem before
    refine ⟨founded_of_meaning found, codecAt_eq_ok_iff.2 ⟨_, present, ?_⟩⟩
    exact (filled _ _ present).codec?_eq found
  case isFalse => simp at found

theorem Filled.earlier_of_codecAt (filled : Filled (fun _ => none) stream slots)
    (found : codecAt slots type back = .ok codec) :
    earlier stream slots.size back = some codec := by
  obtain ⟨slot, present, held⟩ := codecAt_eq_ok_iff.1 found
  obtain ⟨before, -⟩ := Array.getElem?_eq_some_iff.1 present
  rw [earlier, if_pos before, ← filled.codec?_eq_meaning present, held]

/-! ## Resolving a stream -/

/-- Every descriptor of a kind that has codecs denotes one. -/
def Denoted (stream : List Descriptor) : Prop :=
  ∀ position descriptor, stream[position]? = some descriptor → descriptor.isCoded = true →
    ∃ codec, meaning stream position = some codec

/-- A codec that is known for the type of a descriptor is the one that it denotes, if any. -/
def Agrees (known : Uuid → Option Codec) (stream : List Descriptor) : Prop :=
  ∀ position descriptor codec held, stream[position]? = some descriptor →
    meaning stream position = some codec → known descriptor.id = some held → held = codec

theorem agrees_none : Agrees (fun _ => none) stream := by
  intro position descriptor codec held present denoted absent
  simp at absent

theorem drop_eq_cons {rest : List Descriptor} (left : stream.drop position = descriptor :: rest) :
    stream[position]? = some descriptor ∧ stream.drop (position + 1) = rest := by
  constructor
  · rw [← List.head?_drop, left, List.head?_cons]
  · rw [← List.tail_drop, left, List.tail_cons]

/-- A descriptor whose meaning is there fills the next slot. -/
theorem exists_fills (agrees : Agrees known stream) (filled : Filled known stream slots)
    (present : stream[slots.size]? = some descriptor)
    (denotes : descriptor.isCoded = true → ∃ codec, meaning stream slots.size = some codec) :
    ∃ slot, resolve known slots descriptor = .ok slot ∧ Fills known stream slots.size slot := by
  cases coded : descriptor.isCoded with
  | true =>
      obtain ⟨codec, denoted⟩ := denotes coded
      refine ⟨.codec codec, ?_, .inl denoted.symm⟩
      rcases resolve_cases known slots descriptor with fresh | ⟨held, -, there, reused⟩
      · rw [fresh]
        rw [meaning_eq_codecFrom present] at denoted
        exact build_of_codecFrom (fun back codec found => filled.codecAt_of_earlier found) denoted
      · rw [reused, agrees _ _ _ _ present denoted there]
  | false =>
      -- A known codec here is one that no descriptor refers to: nothing is denoted.
      have nothing := meaning_of_not_coded present coded
      rcases resolve_cases known slots descriptor with fresh | ⟨held, -, there, reused⟩
      · obtain ⟨slot, built, empty⟩ := @build_of_not_coded _ slots coded
        exact ⟨slot, fresh.trans built, .inl (empty.trans nothing.symm)⟩
      · exact ⟨.codec held, reused, .inr ⟨nothing, descriptor, held, present, there⟩⟩

/-- Without known codecs, a descriptor that is resolved has a meaning. -/
theorem exists_of_resolve (filled : Filled (fun _ => none) stream slots)
    (present : stream[slots.size]? = some descriptor) (coded : descriptor.isCoded = true)
    (resolved : resolve (fun _ => none) slots descriptor = .ok slot) :
    ∃ codec, meaning stream slots.size = some codec := by
  rcases resolve_cases (fun _ => none) slots descriptor with fresh | ⟨_, -, absent, -⟩
  · rw [fresh] at resolved
    obtain ⟨codec, -, denoted⟩ :=
      codecFrom_of_build coded (fun back codec found => filled.earlier_of_codecAt found) resolved
    refine ⟨codec, ?_⟩
    rw [meaning_eq_codecFrom present, denoted]
  · simp at absent

/-- The run that goes with the step above, from any slots that are filled. -/
theorem resolveAll_of_denoted (denotes : Denoted stream) (agrees : Agrees known stream)
    {rest : List Descriptor} (left : stream.drop slots.size = rest)
    (filled : Filled known stream slots) :
    ∃ final, resolveAll known slots rest = .ok final ∧
      final.size = slots.size + rest.length ∧ Filled known stream final := by
  induction rest generalizing slots with
  | nil => exact ⟨slots, rfl, rfl, filled⟩
  | cons descriptor rest ih =>
      obtain ⟨present, left⟩ := drop_eq_cons left
      obtain ⟨slot, resolved, fills⟩ := exists_fills agrees filled present (denotes _ _ present)
      have left : stream.drop (slots.push slot).size = rest := by rwa [Array.size_push]
      obtain ⟨final, done, size, filled⟩ := ih left (filled.push fills)
      refine ⟨final, ?_, ?_, filled⟩
      · rw [resolveAll, resolved]
        exact done
      · rw [size, Array.size_push, List.length_cons, Nat.add_assoc, Nat.add_comm 1]

theorem exists_of_resolveAll {rest : List Descriptor} {final : Array Slot}
    (left : stream.drop slots.size = rest) (filled : Filled (fun _ => none) stream slots)
    (done : resolveAll (fun _ => none) slots rest = .ok final) (after : slots.size ≤ position)
    (present : stream[position]? = some descriptor) (coded : descriptor.isCoded = true) :
    ∃ codec, meaning stream position = some codec := by
  induction rest generalizing slots with
  | nil =>
      have short : stream.length ≤ slots.size := List.drop_eq_nil_iff.1 left
      have absent : stream[position]? = none := List.getElem?_eq_none (Nat.le_trans short after)
      simp [absent] at present
  | cons next rest ih =>
      obtain ⟨there, left⟩ := drop_eq_cons left
      rw [resolveAll] at done
      split at done
      case h_2 => simp at done
      case h_1 slot resolved =>
        have denotes := fun coded => exists_of_resolve filled there coded resolved
        -- The slot of this position tells of the position itself, the induction of later ones.
        rcases Nat.eq_or_lt_of_le after with rfl | later
        · obtain rfl := Option.some.inj (there.symm.trans present)
          exact denotes coded
        · obtain ⟨_, again, fills⟩ := exists_fills agrees_none filled there denotes
          obtain rfl := Except.ok.inj (resolved.symm.trans again)
          rw [← Array.size_push slot] at left
          refine ih left (filled.push fills) done ?_
          rwa [Array.size_push]

/-- Without known codecs, a stream resolves just if every descriptor of a kind that has codecs
denotes one. -/
theorem resolveAll_iff_denoted :
    (∃ final, resolveAll (fun _ => none) #[] stream = .ok final) ↔ Denoted stream := by
  constructor
  · rintro ⟨final, done⟩ position descriptor present coded
    exact exists_of_resolveAll rfl filled_empty done (Nat.zero_le _) present coded
  · intro denotes
    obtain ⟨final, done, -, -⟩ := resolveAll_of_denoted denotes agrees_none rfl filled_empty
    exact ⟨final, done⟩

theorem filled_of_resolveAll {final : Array Slot}
    (done : resolveAll (fun _ => none) #[] stream = .ok final) :
    final.size = stream.length ∧ Filled (fun _ => none) stream final := by
  have denotes := resolveAll_iff_denoted.1 ⟨final, done⟩
  obtain ⟨same, again, size, filled⟩ :=
    resolveAll_of_denoted denotes agrees_none rfl filled_empty
  obtain rfl := Except.ok.inj (done.symm.trans again)
  exact ⟨by simpa using size, filled⟩

end Resolution
end SchemaWire
