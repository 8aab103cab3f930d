import SchemaWire.Codec.Base
import SchemaWire.Descriptor

/-!
# Resolution

Turning descriptors into codecs.  Descriptors are resolved in the order of the stream, and each may
refer to those before it; codecs known from elsewhere stand for the descriptors of their types.
-/

namespace SchemaWire

/-- What a descriptor stands for once it has been resolved. -/
inductive Slot where
  /-- The codec of a type. -/
  | codec (resolved : Codec)
  /-- A type without codec. -/
  | unsupported (cause : ShapeFault)
  /-- A remark. -/
  | remark
  deriving Repr

namespace Slot

/-- The codec in a slot, for the use of the descriptor of a type. -/
def codecFor (slot : Slot) (type : Uuid) : Except Fault Codec :=
  match slot with
  | .codec resolved => .ok resolved
  | .unsupported cause => .error (.unsupportedShape type cause)
  | .remark => .error (.resolution type .remark)

/-- The codec in a slot, if there is one. -/
def codec? : Slot → Option Codec
  | .codec resolved => some resolved
  | _ => none

end Slot

namespace Resolution

/-- The codec at a position, for the use of the descriptor of a type. -/
def codecAt (slots : Array Slot) (type : Uuid) (position : UInt16) : Except Fault Codec :=
  match slots[position.toNat]? with
  | some slot => slot.codecFor type
  | none => .error (.resolution type (.ahead position.toNat slots.size))

/-- Resolve a descriptor for which no codec is known. -/
def build (slots : Array Slot) (descriptor : Descriptor) : Except Fault Slot :=
  match descriptor with
  | .baseScalar id =>
      match Base.codec? id with
      | some codec => .ok (.codec codec)
      | none => .error (.resolution id .baseScalar)
  | .scalar id base => do
      let base ← codecAt slots id base
      let codec ← base.derive id
      pure (.codec codec)
  | .enumeration id members => .ok (.codec (.enumeration id members))
  | .set id element => do
      let element ← codecAt slots id element
      pure (.codec (.set id element))
  | .array id element dimensions =>
      if dimensions.length = 1 then do
        let element ← codecAt slots id element
        pure (.codec (.array id element))
      else
        .error (.unsupportedShape id (.describedRank dimensions.length))
  | .tuple id elements => do
      let elements ← elements.mapM (codecAt slots id)
      pure (.codec (.tuple id elements))
  | .objectShape _ _ => .ok (.unsupported .objectShape)
  | .namedTuple _ _ => .ok (.unsupported .namedTuple)
  | .inputShape _ _ => .ok (.unsupported .inputShape)
  | .range _ _ => .ok (.unsupported .range)
  | .remark _ _ _ => .ok .remark

/-- Resolve a descriptor.  A codec that is known for its type is taken as it is. -/
def resolve (known : Uuid → Option Codec) (slots : Array Slot) (descriptor : Descriptor) :
    Except Fault Slot :=
  match descriptor.isRemark, known descriptor.id with
  | false, some codec => .ok (.codec codec)
  | _, _ => build slots descriptor

/-- Resolve descriptors one after the other. -/
def resolveAll (known : Uuid → Option Codec) :
    Array Slot → List Descriptor → Except Fault (Array Slot)
  | slots, [] => .ok slots
  | slots, descriptor :: descriptors =>
      match resolve known slots descriptor with
      | .ok slot => resolveAll known (slots.push slot) descriptors
      | .error fault => .error fault

/-- The type and the codec of the last descriptor that is no remark. -/
def root (resolved : List (Descriptor × Slot)) : Except Fault (Uuid × Codec) :=
  match resolved.reverse.find? fun entry => !entry.1.isRemark with
  | none => .error (.resolution .nil .empty)
  | some (descriptor, slot) => do
      let codec ← slot.codecFor descriptor.id
      pure (descriptor.id, codec)

/-- The codecs among resolved descriptors, by type. -/
def built (resolved : List (Descriptor × Slot)) : List (Uuid × Codec) :=
  resolved.filterMap fun entry => entry.2.codec?.map (entry.1.id, ·)

end Resolution
end SchemaWire
