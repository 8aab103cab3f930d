import SchemaWire.Proofs.Codec.Writing
import SchemaWire.Proofs.Resolution.Meaning
import SchemaWire.Codec.Decode
import Mathlib.Logic.Function.Basic

/-!
# Codecs under other types

The codec of a derived type is that of its base under another type.  It reads and writes the same,
since a codec uses its type only to say where a value does not belong; so the faults differ in the
types that they name and in nothing else.
-/

namespace SchemaWire

open Fallible

variable {rename : Uuid → Uuid}

/-! ## Types in faults -/

/-- The fault of a shape with other types in the place of those that it names. -/
def ShapeFault.retype (rename : Uuid → Uuid) : ShapeFault → ShapeFault
  | .underived source => .underived (rename source)
  | .adapter kind inner => .adapter kind (rename inner)
  | cause => cause

/-- The fault of decoding with another type in the place of the one that it names. -/
def DecodeFault.retype (rename : Uuid → Uuid) : DecodeFault → DecodeFault
  | .bounds type upper lower misfit => .bounds (rename type) upper lower misfit
  | .absentElement type index => .absentElement (rename type) index
  | cause => cause

/-- The fault of encoding with another type in the place of the one that it names. -/
def EncodeFault.retype (rename : Uuid → Uuid) : EncodeFault → EncodeFault
  | .mismatch codec type kind => .mismatch codec (rename type) kind
  | .duration type misfit => .duration (rename type) misfit
  | cause => cause

/-- A fault with other types in the place of those that it names. -/
def Fault.retype (rename : Uuid → Uuid) : Fault → Fault
  | .unsupportedShape type cause => .unsupportedShape (rename type) (cause.retype rename)
  | .cardinality type cause => .cardinality (rename type) cause
  | .resolution type cause => .resolution (rename type) cause
  | .decode cause => .decode (cause.retype rename)
  | .encode cause => .encode (cause.retype rename)
  | fault => fault

/-- A fault names no type. -/
def Fault.Untyped (fault : Fault) : Prop :=
  ∀ rename, fault.retype rename = fault

/-! ## Computations whose faults are renamed -/

section

variable {σ α β : Type} {x : EStateM Fault σ α} {next : α → EStateM Fault σ β}

/-- A computation with other types in the place of those that its fault names. -/
def retyped (rename : Uuid → Uuid) (x : EStateM Fault σ α) : EStateM Fault σ α :=
  EStateM.adaptExcept (Fault.retype rename) x

theorem retyped_ok {s t : σ} {a : α} (done : x s = .ok a t) : retyped rename x s = .ok a t := by
  simp only [retyped, EStateM.adaptExcept, done]

theorem retyped_error {s t : σ} {fault : Fault} (failed : x s = .error fault t) :
    retyped rename x s = .error (fault.retype rename) t := by
  simp only [retyped, EStateM.adaptExcept, failed]

theorem retyped_bind :
    retyped rename (x >>= next) = retyped rename x >>= fun a => retyped rename (next a) := by
  funext s
  cases first : x s with
  | ok a t =>
      have same : (x >>= next) s = next a t := bind_apply_ok first
      rw [bind_apply_ok (retyped_ok first), retyped, retyped, EStateM.adaptExcept,
        EStateM.adaptExcept, same]
  | error fault t =>
      rw [bind_apply_error (retyped_error first), retyped_error (bind_apply_error first)]

/-- Whatever a computation fails for, it names no type. -/
def Untyped (x : EStateM Fault σ α) : Prop :=
  ∀ ⦃s fault t⦄, x s = .error fault t → fault.Untyped

/-- Renaming types does nothing where none is named. -/
theorem Untyped.retyped_eq (untyped : Untyped x) : retyped rename x = x := by
  funext s
  cases ran : x s with
  | ok a t => rw [retyped_ok ran]
  | error fault t => rw [retyped_error ran, untyped ran]

theorem untyped_pure (a : α) : Untyped (pure a : EStateM Fault σ α) := by
  intro s fault t failed
  simp at failed

theorem untyped_throw {fault : Fault} (untyped : fault.Untyped) :
    Untyped (throw fault : EStateM Fault σ α) := by
  intro s _ t failed
  obtain ⟨rfl, -⟩ := EStateM.Result.error.inj failed
  exact untyped

theorem Untyped.bind (first : Untyped x) (second : ∀ a, Untyped (next a)) :
    Untyped (x >>= next) := by
  intro s fault t failed
  rcases bind_apply_eq_error.1 failed with opened | ⟨a, u, -, closed⟩
  · exact first opened
  · exact second a closed

theorem Untyped.map (untyped : Untyped x) (view : α → β) :
    Untyped (do let a ← x; pure (view a)) :=
  untyped.bind fun a => untyped_pure (view a)

theorem Untyped.ite {condition : Prop} [Decidable condition] {other : EStateM Fault σ α}
    (held : Untyped x) (failed : Untyped other) : Untyped (if condition then x else other) := by
  split
  case isTrue => exact held
  case isFalse => exact failed

end

/-! ## Reading -/

namespace Reads

theorem untyped_take (access : Access) (count : Nat) : Untyped (take access count) := by
  intro start fault stop failed
  rw [take] at failed
  split at failed
  case h_1 => simp at failed
  case h_2 =>
    obtain ⟨rfl, -⟩ := EStateM.Result.error.inj failed
    intro rename
    rfl

theorem untyped_rest : Untyped rest := by
  intro start fault stop failed
  simp [rest] at failed

theorem untyped_finish : Untyped finish := by
  intro start fault stop failed
  rw [finish] at failed
  split at failed
  case isTrue => simp at failed
  case isFalse =>
    obtain ⟨rfl, -⟩ := EStateM.Result.error.inj failed
    intro rename
    rfl

theorem untyped_number (access : Access) (width : Nat) : Untyped (number access width) :=
  (untyped_take access width).map _

theorem untyped_byte : Untyped byte :=
  (untyped_take .byte 1).map _

theorem untyped_int64 : Untyped int64 :=
  (untyped_number .int64 8).map _

theorem untyped_textOf (place : TextPlace) (bytes : List UInt8) :
    Untyped (ofExcept (textOf place bytes)) := by
  rw [textOf]
  split
  case h_1 text _ => exact untyped_pure text
  case h_2 flaw _ => exact untyped_throw fun _ => rfl

theorem run_whole_retyped {α : Type} {read : Reads α} (rename : Uuid → Uuid) (bytes : List UInt8) :
    (whole (retyped rename read)).run bytes =
      ((whole read).run bytes).mapError (Fault.retype rename) := by
  have same : whole (retyped rename read) = retyped rename (whole read) := by
    rw [whole, whole, retyped_bind]
    exact congrArg (_ >>= ·) (funext fun value => (untyped_finish.map _).retyped_eq.symm)
  rw [same, run, run]
  cases ran : whole read (Cursor.ofBytes bytes) with
  | ok value stop => rw [retyped_ok ran]; rfl
  | error fault stop => rw [retyped_error ran]; rfl

end Reads

open Reads in
/-- A scalar is read without its type. -/
theorem ScalarKind.untyped_read (kind : ScalarKind) : Untyped kind.read := by
  cases kind with
  | uuid =>
      have word : Untyped word64 := (untyped_number .word64 8).map _
      refine (word.bind fun high => ?_).map _
      exact word.map _
  | text =>
      refine untyped_rest.bind fun bytes => ?_
      exact (untyped_textOf .scalar bytes).map _
  | bytes => exact untyped_rest.map _
  | int16 | int32 | int64 | float32 | float64 => exact ((untyped_number _ _).map _).map _
  | bool =>
      refine untyped_byte.bind fun byte => ?_
      apply Untyped.ite (untyped_pure _)
      apply Untyped.ite (untyped_pure _)
      exact untyped_throw fun _ => rfl
  | json =>
      refine untyped_byte.bind fun format => ?_
      refine Untyped.ite ?_ (untyped_throw fun _ => rfl)
      refine untyped_rest.bind fun bytes => ?_
      exact (untyped_textOf .scalar bytes).map _
  | duration =>
      refine untyped_int64.bind fun count => ?_
      exact ((untyped_take .skip 8).map _).map _

theorem TimestampKind.untyped_ofInner (kind : TimestampKind) (inner : Value) :
    Untyped (Reads.ofExcept (kind.ofInner inner)) := by
  unfold ofInner
  split
  case h_1 =>
    split
    case h_1 => exact untyped_pure _
    case h_2 => exact untyped_throw fun _ => rfl
  case h_2 => exact untyped_throw fun _ => rfl

/-! ## Writing -/

theorem Writes.untyped_put (bytes : List UInt8) : Untyped (Writes.put bytes) := by
  refine Untyped.bind ?_ fun _ => ?_
  · intro draft fault after failed
    rw [reserve] at failed
    split at failed
    case h_1 => simp at failed
    case h_2 =>
      obtain ⟨rfl, -⟩ := EStateM.Result.error.inj failed
      intro rename
      rfl
  · intro draft fault after failed
    simp at failed

/-- A scalar is written under another type as it is under its own. -/
theorem ScalarKind.write_retype (rename : Uuid → Uuid) (kind : ScalarKind) (type : Uuid)
    (value : Value) :
    kind.write (rename type) value = retyped rename (kind.write type value) := by
  by_cases matching : value.kind = kind.valueKind
  case neg =>
    rw [write_of_mismatch matching, write_of_mismatch matching]
    rfl
  case pos =>
    cases kind with
    | uuid | text | bytes | bool | int16 | int32 | int64 | float32 | float64 =>
        cases value <;> cases matching
        exact (Writes.untyped_put _).retyped_eq.symm
    | json =>
        cases value <;> cases matching
        case refl text =>
          have untyped := (Writes.untyped_put [jsonFormat]).bind fun _ =>
            Writes.untyped_put (Utf8.encode text)
          exact untyped.retyped_eq.symm
    | duration =>
        cases value <;> cases matching
        case refl nanoseconds =>
          have filled (count : Int64) : Untyped (do
              Writes.int64 count
              Writes.int32 0
              Writes.int32 0) := by
            refine (Writes.untyped_put _).bind fun _ => ?_
            refine (Writes.untyped_put _).bind fun _ => ?_
            exact Writes.untyped_put _
          rw [ScalarKind.write, ScalarKind.write, retyped_bind, durationWord, durationWord]
          split
          case h_1 => exact (filled _).retyped_eq.symm
          case h_2 => rfl

theorem TimestampKind.untyped_toInner (kind : TimestampKind) (outer : Value) :
    Untyped (Writes.ofExcept (kind.toInner outer)) := by
  by_cases matching : outer.kind = kind.valueKind
  case neg =>
    rw [toInner_of_mismatch matching]
    exact untyped_throw fun _ => rfl
  case pos =>
    cases kind <;> cases outer <;> cases matching <;> exact untyped_pure _

/-! ## Codecs -/

namespace Codec

variable {base derived : Codec} {type : Uuid}

/-- A codec behaves as another one does: it reads the same from any payload and writes the same into
any draft, and what goes wrong is the same, but for its own type in the place of the other's. -/
structure Mirrors (derived base : Codec) : Prop where
  /-- It reads the same. -/
  reads : derived.read = retyped (Function.update id base.typeId derived.typeId) base.read
  /-- It writes the same. -/
  writes : ∀ value, derived.writeOptional value =
    retyped (Function.update id base.typeId derived.typeId) (base.writeOptional value)

theorem Mirrors.decode (mirrors : derived.Mirrors base) (bytes : Option (List UInt8)) :
    derived.decode bytes =
      (base.decode bytes).mapError
        (Fault.retype (Function.update id base.typeId derived.typeId)) := by
  cases bytes with
  | none => rfl
  | some bytes =>
      rw [Codec.decode, Codec.decode, mirrors.reads, Reads.run_whole_retyped]
      cases (Reads.whole base.read).run bytes <;> rfl

theorem Mirrors.encode (mirrors : derived.Mirrors base) (value : Option Value) :
    derived.encode value =
      (base.encode value).mapError
        (Fault.retype (Function.update id base.typeId derived.typeId)) := by
  rw [Codec.encode, Codec.encode, mirrors.writes, Writes.run, Writes.run]
  cases ran : base.writeOptional value (Draft.after #[] none) with
  | ok _ draft => rw [retyped_ok ran]; rfl
  | error fault draft => rw [retyped_error ran]; rfl

/-- The codecs on which derived types are based: those of base scalars and of enumerations. -/
def Basic : Codec → Prop
  | .scalar _ _ | .enumeration _ _ => True
  | .timestamp type inner _ => inner = Base.microseconds ∧ type ≠ Base.duration
  | _ => False

theorem basic_of_base (registered : Base.codec? type = some base) : base.Basic := by
  rw [Base.codec?] at registered
  split at registered
  case isTrue =>
    obtain rfl := Option.some.inj registered
    exact ⟨rfl, by decide⟩
  case isFalse =>
    split at registered
    case isTrue =>
      obtain rfl := Option.some.inj registered
      exact ⟨rfl, by decide⟩
    case isFalse =>
      obtain ⟨kind, -, rfl⟩ := Option.map_eq_some_iff.1 registered
      trivial

theorem Basic.exists_renamed (basic : base.Basic) (type : Uuid) :
    ∃ derived, base.renamed type = some derived ∧ derived.typeId = type := by
  cases base with
  | scalar | timestamp | enumeration => exact ⟨_, rfl, rfl⟩
  | set | array | tuple => exact basic.elim

theorem Basic.renamed_typeId (basic : base.Basic) : base.renamed base.typeId = some base := by
  cases base with
  | scalar | timestamp | enumeration => rfl
  | set | array | tuple => exact basic.elim

/-- Of two types that a codec is given, one after the other, the second counts. -/
theorem renamed_of_renamed {middle : Codec} {first : Uuid}
    (renamed : base.renamed first = some middle) : middle.renamed type = base.renamed type := by
  cases base with
  | scalar | timestamp | enumeration =>
      obtain rfl := Option.some.inj renamed
      rfl
  | set | array | tuple => simp [Codec.renamed] at renamed

theorem mirrors_scalar (own type : Uuid) (kind : ScalarKind) :
    (scalar type kind).Mirrors (.scalar own kind) := by
  constructor
  · exact kind.untyped_read.retyped_eq.symm
  · intro value
    cases value with
    | none => rfl
    | some value =>
        have written := kind.write_retype (Function.update id own type) own value
        rwa [Function.update_self] at written

theorem mirrors_timestamp {own : Uuid} (other : own ≠ Base.duration) (type : Uuid)
    (kind : TimestampKind) :
    (timestamp type Base.microseconds kind).Mirrors (.timestamp own Base.microseconds kind) := by
  constructor
  · have untyped : Untyped (Base.microseconds.read >>= fun value =>
        Reads.ofExcept (kind.ofInner value)) :=
      (ScalarKind.untyped_read _).bind kind.untyped_ofInner
    exact untyped.retyped_eq.symm
  · intro value
    cases value with
    | none => rfl
    | some value =>
        -- The inner scalar has its own type, which is not the one that is replaced.
        have written (count : Value) : retyped (Function.update id own type)
            (Base.microseconds.write count) = Base.microseconds.write count := by
          have kept := ScalarKind.write_retype (Function.update id own type) .duration
            Base.duration count
          rw [Function.update_of_ne other.symm, id] at kept
          exact kept.symm
        show (timestamp type Base.microseconds kind).write value =
          retyped (Function.update id own type)
            ((timestamp own Base.microseconds kind).write value)
        rw [Codec.write, Codec.write, retyped_bind, (kind.untyped_toInner value).retyped_eq]
        exact congrArg (_ >>= ·) (funext fun count => (written count).symm)

theorem checkMember_retype (rename : Uuid → Uuid) (type : Uuid) (members : List String)
    (name : String) :
    checkMember (rename type) members name =
      (checkMember type members name).mapError (Fault.retype rename) := by
  rw [checkMember, checkMember]
  split <;> rfl

theorem mirrors_enumeration (own type : Uuid) (members : List String) :
    (enumeration type members).Mirrors (.enumeration own members) := by
  have renames : Function.update id own type own = type := Function.update_self own type id
  constructor
  · show (enumeration type members).read = retyped (Function.update id own type) _
    rw [Codec.read, Codec.read, retyped_bind, Reads.untyped_rest.retyped_eq]
    refine congrArg (_ >>= ·) (funext fun bytes => ?_)
    rw [retyped_bind, (Reads.untyped_textOf _ _).retyped_eq]
    refine congrArg (_ >>= ·) (funext fun name => ?_)
    nth_rewrite 1 [← renames]
    rw [retyped_bind, checkMember_retype]
    cases checkMember own members name <;> rfl
  · intro value
    have named (name : String) : writeMember type members name =
        retyped (Function.update id own type) (writeMember own members name) := by
      nth_rewrite 1 [← renames]
      rw [writeMember, writeMember, retyped_bind, checkMember_retype]
      cases checkMember own members name with
      | ok _ => exact (Writes.untyped_put _).retyped_eq.symm
      | error fault => rfl
    have refused (kind : Value.Kind) :
        (throw (.encode (.mismatch .enumeration type kind)) : Writes Unit) =
          retyped (Function.update id own type)
            (throw (.encode (.mismatch .enumeration own kind))) := by
      nth_rewrite 1 [← renames]
      rfl
    cases value with
    | none => rfl
    | some value =>
        cases value with
        | member name | text name => exact named name
        | _ => exact refused _

/-- The codec of a base scalar or an enumeration behaves the same under another type. -/
theorem mirrors_of_renamed (basic : base.Basic) (renamed : base.renamed type = some derived) :
    derived.Mirrors base := by
  cases base with
  | scalar own kind =>
      obtain rfl := Option.some.inj renamed
      exact mirrors_scalar own type kind
  | timestamp own inner kind =>
      obtain rfl := Option.some.inj renamed
      obtain ⟨rfl, other⟩ := basic
      exact mirrors_timestamp other type kind
  | enumeration own members =>
      obtain rfl := Option.some.inj renamed
      exact mirrors_enumeration own type members
  | set | array | tuple => exact basic.elim

end Codec
end SchemaWire
