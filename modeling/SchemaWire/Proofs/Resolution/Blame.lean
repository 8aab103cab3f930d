import SchemaWire.Cache
import SchemaWire.Proofs.Descriptor
import SchemaWire.Proofs.Fallible

/-!
# Streams that do not resolve

A stream that does not resolve fails for what its bytes say: they are no descriptors, or a
descriptor among them stands for no codec.  The cache has no part in it.
-/

namespace SchemaWire

open Fallible

variable {α β : Type}

theorem BlamesBytes.bind {result : Except Fault α} {next : α → Except Fault β}
    (first : BlamesBytes result) (second : ∀ value, BlamesBytes (next value)) :
    BlamesBytes (result >>= next) := by
  cases result with
  | ok value => exact second value
  | error fault => exact blamesBytes_error (first rfl)

theorem blamesBytes_mapM {each : α → Except Fault β} (one : ∀ item, BlamesBytes (each item))
    (items : List α) : BlamesBytes (items.mapM each) := by
  induction items with
  | nil => exact blamesBytes_ok []
  | cons item items ih =>
      rw [List.mapM_cons]
      refine (one item).bind fun value => ?_
      refine ih.bind fun values => ?_
      exact blamesBytes_ok (value :: values)

theorem Codec.blamesBytes_derive (codec : Codec) (type : Uuid) :
    BlamesBytes (codec.derive type) := by
  cases codec with
  | scalar _ kind => exact blamesBytes_ok _
  | timestamp _ inner kind =>
      rw [derive, adapt]
      split
      case isTrue => exact blamesBytes_ok _
      case isFalse => exact blamesBytes_error trivial
  | enumeration _ members => exact blamesBytes_ok _
  | _ => exact blamesBytes_error trivial

theorem Slot.blamesBytes_codecFor (slot : Slot) (type : Uuid) :
    BlamesBytes (slot.codecFor type) := by
  cases slot with
  | codec resolved => exact blamesBytes_ok resolved
  | unsupported cause => exact blamesBytes_error trivial
  | remark => exact blamesBytes_error trivial

namespace Resolution

theorem blamesBytes_codecAt (slots : Array Slot) (type : Uuid) (position : UInt16) :
    BlamesBytes (codecAt slots type position) := by
  rw [codecAt]
  split
  case h_1 slot _ => exact slot.blamesBytes_codecFor type
  case h_2 => exact blamesBytes_error trivial

theorem blamesBytes_build (slots : Array Slot) (descriptor : Descriptor) :
    BlamesBytes (build slots descriptor) := by
  cases descriptor with
  | baseScalar id =>
      rw [build]
      split
      case h_1 => exact blamesBytes_ok _
      case h_2 => exact blamesBytes_error trivial
  | scalar id base =>
      refine (blamesBytes_codecAt slots id base).bind fun codec => ?_
      refine (codec.blamesBytes_derive id).bind fun derived => ?_
      exact blamesBytes_ok _
  | set id element =>
      refine (blamesBytes_codecAt slots id element).bind fun codec => ?_
      exact blamesBytes_ok _
  | array id element dimensions =>
      rw [build]
      split
      case isTrue =>
        refine (blamesBytes_codecAt slots id element).bind fun codec => ?_
        exact blamesBytes_ok _
      case isFalse => exact blamesBytes_error trivial
  | tuple id elements =>
      refine (blamesBytes_mapM (blamesBytes_codecAt slots id) elements).bind fun codecs => ?_
      exact blamesBytes_ok _
  | _ => exact blamesBytes_ok _

theorem blamesBytes_resolveAll (known : Uuid → Option Codec) (descriptors : List Descriptor)
    (slots : Array Slot) : BlamesBytes (resolveAll known slots descriptors) := by
  induction descriptors generalizing slots with
  | nil => exact blamesBytes_ok slots
  | cons descriptor descriptors ih =>
      rw [resolveAll]
      cases resolved : resolve known slots descriptor with
      | ok slot => exact ih (slots.push slot)
      | error fault =>
          rw [resolve] at resolved
          split at resolved
          case h_1 => simp at resolved
          case h_2 => exact blamesBytes_error (blamesBytes_build slots descriptor resolved)

theorem blamesBytes_root (resolved : List (Descriptor × Slot)) : BlamesBytes (root resolved) := by
  rw [root]
  split
  case h_1 => exact blamesBytes_error trivial
  case h_2 descriptor slot _ =>
    refine (slot.blamesBytes_codecFor descriptor.id).bind fun codec => ?_
    exact blamesBytes_ok _

end Resolution

theorem Cache.blamesBytes_describe (cache : Cache) (stream : List UInt8) :
    BlamesBytes (cache.describe stream) := by
  refine (Descriptor.blamesBytes_ofStream stream).bind fun descriptors => ?_
  refine (Resolution.blamesBytes_resolveAll cache.find? descriptors #[]).bind fun slots => ?_
  refine (Resolution.blamesBytes_root _).bind fun root => ?_
  exact blamesBytes_ok _

/-- What keeps a stream from resolving lies in its bytes. -/
theorem Cache.liesInBytes_of_resolve {cache after : Cache} {stream : List UInt8} {generation : Uuid}
    {fault : Fault} (failed : Cache.resolve stream generation cache = .error fault after) :
    fault.LiesInBytes := by
  rw [resolve] at failed
  split at failed
  case h_1 cause described =>
    obtain ⟨rfl, -⟩ := EStateM.Result.error.inj failed
    exact Cache.blamesBytes_describe _ _ described
  case h_2 => simp at failed

end SchemaWire
