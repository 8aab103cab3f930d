import SchemaWire.Proofs.Codec.Renaming
import SchemaWire.Proofs.Resolution.Linking

/-!
# Derived types

A scalar type may be derived from another one, and that from a third.  However long such a chain is,
its last type has the codec of the base scalar or the enumeration at its start, under its own type;
so values of it stand on the wire just as those of the base do.  A chain cannot start at a set, an
array or a tuple.
-/

namespace SchemaWire

open Descriptor Fallible

namespace Descriptor

/-- The codec of a descriptor from which others may be derived, as far as that is known from the
descriptor alone. -/
def base? : Descriptor → Option Codec
  | .baseScalar id => Base.codec? id
  | .enumeration id members => some (.enumeration id members)
  | _ => none

/-- Whether a descriptor is one of values that hold others. -/
def isCollection : Descriptor → Bool
  | .set _ _ | .array _ _ _ | .tuple _ _ => true
  | _ => false

end Descriptor

/-- The descriptor at a position is that of a base scalar or an enumeration with a codec, or that of
a scalar which is derived, over any number of earlier ones, from such a descriptor. -/
inductive Derives (stream : List Descriptor) (base : Codec) : Nat → Prop where
  | base {position : Nat} {descriptor : Descriptor}
      (present : stream[position]? = some descriptor) (own : descriptor.base? = some base) :
      Derives stream base position
  | scalar {position : Nat} {id : Uuid} {back : UInt16} (source : Derives stream base back.toNat)
      (earlier : back.toNat < position) (present : stream[position]? = some (.scalar id back)) :
      Derives stream base position

variable {stream : List Descriptor} {descriptor : Descriptor} {base codec : Codec} {position : Nat}
  {type : Uuid}

/-! ## Chains -/

theorem basic_of_base? (own : descriptor.base? = some base) : base.Basic := by
  cases descriptor with
  | baseScalar id => exact Codec.basic_of_base own
  | enumeration id members =>
      obtain rfl := Option.some.inj own
      trivial
  | _ => simp [base?] at own

theorem codecFrom_of_base? (own : descriptor.base? = some base) (codecs : UInt16 → Option Codec) :
    descriptor.codecFrom codecs = some base := by
  cases descriptor with
  | baseScalar | enumeration => exact own
  | _ => simp [base?] at own

theorem Derives.basic (derives : Derives stream base position) : base.Basic := by
  induction derives with
  | base _ own => exact basic_of_base? own
  | scalar _ _ _ ih => exact ih

theorem Derives.present (derives : Derives stream base position) :
    ∃ descriptor, stream[position]? = some descriptor := by
  cases derives with
  | base present => exact ⟨_, present⟩
  | scalar _ _ present => exact ⟨_, present⟩

/-- The base of a chain stands in the stream itself. -/
theorem Derives.origin (derives : Derives stream base position) :
    ∃ origin descriptor, stream[origin]? = some descriptor ∧ descriptor.id = base.typeId ∧
      meaning stream origin = some base := by
  induction derives with
  | @base position descriptor present own =>
      have denoted := codecFrom_of_base? own (earlier stream position)
      refine ⟨position, descriptor, present, (typeId_of_codecFrom denoted).symm, ?_⟩
      rw [meaning_eq_codecFrom present, denoted]
  | scalar _ _ _ ih => exact ih

/-- A descriptor at any distance from a base denotes the codec of the base under its own type. -/
theorem Derives.meaning_eq (derives : Derives stream base position)
    (present : stream[position]? = some descriptor) :
    meaning stream position = base.renamed descriptor.id := by
  induction derives generalizing descriptor with
  | @base position source presentToo own =>
      obtain rfl := Option.some.inj (presentToo.symm.trans present)
      have denoted := codecFrom_of_base? own (earlier stream position)
      rw [meaning_eq_codecFrom present, denoted, ← typeId_of_codecFrom denoted]
      exact (basic_of_base? own).renamed_typeId.symm
  | @scalar position id back source before presentToo ih =>
      obtain rfl := Option.some.inj (presentToo.symm.trans present)
      obtain ⟨inner, there⟩ := source.present
      obtain ⟨middle, renamed, -⟩ := source.basic.exists_renamed inner.id
      rw [meaning_eq_codecFrom present, codecFrom, earlier, if_pos before, ih there, renamed]
      exact Codec.renamed_of_renamed renamed

/-! ## Collections -/

/-- No type is derived from that of a collection. -/
theorem derive_of_isCollection {codecs : UInt16 → Option Codec} (type : Uuid)
    (collects : descriptor.isCollection = true)
    (denoted : descriptor.codecFrom codecs = some codec) :
    codec.derive type = .error (.unsupportedShape type (.underived descriptor.id)) := by
  rw [← typeId_of_codecFrom denoted]
  cases descriptor with
  | set id element =>
      obtain ⟨_, -, rfl⟩ := Option.map_eq_some_iff.1 denoted
      rfl
  | array id element dimensions =>
      rw [codecFrom] at denoted
      split at denoted
      case isTrue =>
        obtain ⟨_, -, rfl⟩ := Option.map_eq_some_iff.1 denoted
        rfl
      case isFalse => simp at denoted
  | tuple id elements =>
      obtain ⟨_, -, rfl⟩ := Option.map_eq_some_iff.1 denoted
      rfl
  | _ => simp [isCollection] at collects

theorem isCoded_of_isCollection (collects : descriptor.isCollection = true) :
    descriptor.isCoded = true := by
  cases descriptor with
  | set | array | tuple => rfl
  | _ => simp [isCollection] at collects

namespace Resolution

variable {known : Uuid → Option Codec} {front rest : List Descriptor} {slots : Array Slot}

theorem resolveAll_append (known : Uuid → Option Codec) (slots : Array Slot)
    (front rest : List Descriptor) :
    resolveAll known slots (front ++ rest) =
      match resolveAll known slots front with
      | .ok slots => resolveAll known slots rest
      | .error fault => .error fault := by
  induction front generalizing slots with
  | nil => rfl
  | cons descriptor front ih =>
      rw [List.cons_append, resolveAll, resolveAll]
      cases resolve known slots descriptor with
      | ok slot => exact ih (slots.push slot)
      | error fault => rfl

/-- After descriptors that resolve, a scalar over a collection among them does not. -/
theorem resolveAll_of_underived {source : Descriptor} {back : UInt16}
    (ran : resolveAll (fun _ => none) #[] front = .ok slots)
    (present : front[back.toNat]? = some source) (collects : source.isCollection = true)
    (id : Uuid) (rest : List Descriptor) :
    resolveAll (fun _ => none) slots (.scalar id back :: rest) =
      .error (.unsupportedShape id (.underived source.id)) := by
  obtain ⟨paired, filled⟩ := filled_of_resolveAll ran
  obtain ⟨codec, denoted⟩ := resolveAll_iff_denoted.1 ⟨slots, ran⟩ _ _ present
    (isCoded_of_isCollection collects)
  obtain ⟨slot, there⟩ := exists_slot paired present
  have reached : codecAt slots id back = .ok codec := by
    refine codecAt_eq_ok_iff.2 ⟨slot, there, ?_⟩
    rw [filled.codec?_eq_meaning there, denoted]
  rw [meaning_eq_codecFrom present] at denoted
  have refused := derive_of_isCollection id collects denoted
  have failed : resolve (fun _ => none) slots (.scalar id back) =
      .error (.unsupportedShape id (.underived source.id)) := by
    show build slots (.scalar id back) = _
    rw [build, reached, bind_ok, refused, bind_error]
  rw [resolveAll, failed]

end Resolution

namespace Cache

open Resolution

variable {bytes : List UInt8} {generation : Uuid} {cache after : Cache}

/-- Descriptors that do not resolve by themselves do not resolve in a cache without entries. -/
theorem resolve_of_blank_error {fault : Fault} (parsed : Descriptor.ofStream bytes = .ok stream)
    (blank : cache.entries = []) (failed : resolveAll (fun _ => none) #[] stream = .error fault) :
    resolve bytes generation cache = .error fault (cache.enter generation) := by
  have described : (cache.enter generation).describe bytes = .error fault := by
    rw [enter_of_blank blank, describe, parsed, bind_ok]
    show (resolveAll (fun _ => none) #[] stream >>= _) = _
    rw [failed, bind_error]
  rw [resolve, described]

/-- A stream that describes no type twice, from a cache without entries.  The codec of a type that
is derived over any number of others from a base scalar or an enumeration is of that type, and it
behaves as the codec of the base does: any value is written as the same bytes, or refused for the
same reason, and any bytes are read as the same value, or refused for the same reason, but that the
fault names the derived type where it would name that of the base.  This is the codec that the cache
holds for the type once the stream is resolved, and the result if the type is described last; the
stream does resolve if it describes no other types with codecs than such ones.  A scalar over a set,
an array or a tuple keeps a stream from being resolved, for this reason unless a descriptor before
it has failed. -/
theorem derived_mirrors_base (parsed : Descriptor.ofStream bytes = .ok stream)
    (distinct : ((stream.filter (!·.isRemark)).map Descriptor.id).Nodup)
    (blank : cache.entries = []) :
    (∀ base position descriptor, Derives stream base position →
      stream[position]? = some descriptor →
      ∃ derived : Codec, derived.typeId = descriptor.id ∧ derived.Mirrors base ∧
        (∀ value, derived.encode value = (base.encode value).mapError
          (Fault.retype (Function.update id base.typeId derived.typeId))) ∧
        (∀ payload, derived.decode payload = (base.decode payload).mapError
          (Fault.retype (Function.update id base.typeId derived.typeId))) ∧
        (∀ root after, resolve bytes generation cache = .ok root after →
          after.lookup generation base.typeId = some base ∧
            after.lookup generation descriptor.id = some derived ∧
            (IsRoot stream position → root = derived)) ∧
        (IsRoot stream position →
          (∀ other coded, stream[other]? = some coded → coded.isCoded = true →
            ∃ base, Derives stream base other) →
          ∃ after, resolve bytes generation cache = .ok derived after)) ∧
    ∀ front id back rest source, stream = front ++ .scalar id back :: rest →
      front[back.toNat]? = some source → source.isCollection = true →
      resolve bytes generation cache =
        .error
          (match resolveAll (fun _ => none) #[] front with
            | .ok _ => .unsupportedShape id (.underived source.id)
            | .error fault => fault)
          (cache.enter generation) := by
  obtain ⟨outcome, entered⟩ := @resolve_iff_denotes _ _ generation cache parsed distinct blank
  constructor
  · intro base position descriptor derives present
    obtain ⟨derived, renamed, typed⟩ := derives.basic.exists_renamed descriptor.id
    have mirrors := Codec.mirrors_of_renamed derives.basic renamed
    have denoted : meaning stream position = some derived := by
      rw [derives.meaning_eq present, renamed]
    refine ⟨derived, typed, mirrors, mirrors.encode, mirrors.decode, ?_, ?_⟩
    · intro root after done
      obtain ⟨origin, first, start, same, own⟩ := derives.origin
      refine ⟨(entered root after done _ _).2 ⟨origin, first, start, same, own⟩,
        (entered root after done _ _).2 ⟨position, descriptor, present, rfl, denoted⟩, ?_⟩
      intro last
      obtain ⟨denotes, -⟩ := (outcome root).1 ⟨after, done⟩
      obtain ⟨again, same⟩ := (outcome derived).2 ⟨denotes, position, last, denoted⟩
      exact (EStateM.Result.ok.inj (done.symm.trans same)).1
    · intro last each
      refine (outcome derived).2 ⟨?_, position, last, denoted⟩
      intro other coded there isCoded
      obtain ⟨base, chain⟩ := each other coded there isCoded
      obtain ⟨codec, renamed, -⟩ := chain.basic.exists_renamed coded.id
      refine ⟨codec, ?_⟩
      rw [chain.meaning_eq there, renamed]
  · rintro front id back rest source rfl present collects
    refine resolve_of_blank_error parsed blank ?_
    rw [resolveAll_append]
    cases ran : resolveAll (fun _ => none) #[] front with
    | ok slots => exact resolveAll_of_underived ran present collects id rest
    | error fault => rfl

/-- A type of instants that is derived from another one. -/
def instantsSample : List Descriptor :=
  [.baseScalar Base.datetime, .scalar (.ofLow 0xA1) 0, .scalar (.ofLow 0xA2) 1]

/-- A scalar over a set. -/
def overSetSample : List Descriptor :=
  [.baseScalar (.ofLow 0x101), .set (.ofLow 0x5E7) 0, .scalar (.ofLow 0xA1) 1]

theorem derives_instantsSample (position : Nat) (inside : position < 3) :
    Derives instantsSample (.timestamp Base.datetime Base.microseconds .datetime) position := by
  have origin : Derives instantsSample (.timestamp Base.datetime Base.microseconds .datetime) 0 :=
    .base rfl rfl
  have first : Derives instantsSample (.timestamp Base.datetime Base.microseconds .datetime) 1 :=
    @Derives.scalar _ _ 1 _ 0 origin (by decide) rfl
  have second : Derives instantsSample (.timestamp Base.datetime Base.microseconds .datetime) 2 :=
    @Derives.scalar _ _ 2 _ 1 first (by decide) rfl
  match position with
  | 0 => exact origin
  | 1 => exact first
  | 2 => exact second

theorem derived_mirrors_base_sample :
    let instants := [2] ++ Base.datetime.bytes ++ [3] ++ (Uuid.ofLow 0xA1).bytes ++ [0, 0] ++
      [3] ++ (Uuid.ofLow 0xA2).bytes ++ [0, 1]
    let overSet := [2] ++ (Uuid.ofLow 0x101).bytes ++ [0] ++ (Uuid.ofLow 0x5E7).bytes ++ [0, 0] ++
      [3] ++ (Uuid.ofLow 0xA1).bytes ++ [0, 1]
    Descriptor.ofStream instants = .ok instantsSample ∧
      (∃ derived : Codec, derived.typeId = .ofLow 0xA2 ∧
        derived.Mirrors (.timestamp Base.datetime Base.microseconds .datetime) ∧
        ∃ after, resolve instants (.ofLow 0xA) .empty = .ok derived after) ∧
      Descriptor.ofStream overSet = .ok overSetSample ∧
      resolve overSet (.ofLow 0xA) .empty =
        .error (.unsupportedShape (.ofLow 0xA1) (.underived (.ofLow 0x5E7)))
          ⟨some (.ofLow 0xA), []⟩ := by
  intro instants overSet
  have parsed : Descriptor.ofStream instants = .ok instantsSample := rfl
  have parsedToo : Descriptor.ofStream overSet = .ok overSetSample := rfl
  obtain ⟨chains, -⟩ := @derived_mirrors_base _ _ (.ofLow 0xA) .empty parsed (by decide) rfl
  obtain ⟨-, collections⟩ := @derived_mirrors_base _ _ (.ofLow 0xA) .empty parsedToo (by decide) rfl
  obtain ⟨derived, typed, mirrors, -, -, -, done⟩ :=
    chains _ 2 _ (derives_instantsSample 2 (by decide)) rfl
  refine ⟨parsed, ⟨derived, typed, mirrors, done ?_ ?_⟩, parsedToo, ?_⟩
  · exact ⟨instantsSample.take 2, _, [], rfl, rfl, rfl, by simp⟩
  · intro other coded there _
    obtain ⟨inside, -⟩ := List.getElem?_eq_some_iff.1 there
    exact ⟨_, derives_instantsSample other inside⟩
  · exact collections [.baseScalar (.ofLow 0x101), .set (.ofLow 0x5E7) 0] _ 1 [] _ rfl rfl rfl

end Cache
end SchemaWire
