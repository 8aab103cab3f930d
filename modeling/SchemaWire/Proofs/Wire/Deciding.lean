import SchemaWire.Proofs.Wire.Items
import Mathlib.Algebra.Ring.Nat

/-!
# Writes that are decided by what is written

A value that does not fit its type is refused, and never for want of room, as long as the draft has
no bound.  Unlike the bytes of a field, those of such a value are not known beforehand; how many
they are is.
-/

namespace SchemaWire

/-- A fault that lies in a value or in its type, and not in the wire. -/
inductive Fault.OfValue : Fault → Prop where
  /-- The value is not one of the type. -/
  | encode (cause : EncodeFault) : OfValue (.encode cause)
  /-- The value has another number of elements, or is no member. -/
  | cardinality (type : Uuid) (cause : CardinalityFault) : OfValue (.cardinality type cause)
  /-- No value of the type can be written. -/
  | unsupportedShape (type : Uuid) (cause : ShapeFault) : OfValue (.unsupportedShape type cause)

namespace Writes

open Fallible

variable {write first second : Writes Unit} {fits more : Prop} {size other : Nat} {draft : Draft}

theorem Unbounded.add (unbounded : Unbounded draft) (bytes : List UInt8) :
    Unbounded (draft.add bytes) := by
  constructor
  · calc
      draft.start ≤ draft.buffer.size := unbounded.begun
      _ ≤ draft.buffer.size + bytes.length := Nat.le_add_right _ _
      _ = (draft.add bytes).buffer.size := by rw [Draft.size_buffer_add]
  · exact unbounded.free

/-- A write without a bound adds a known number of bytes if what is written fits, and otherwise
refuses it. -/
structure Decides (write : Writes Unit) (fits : Prop) (size : Nat) : Prop where
  writes : fits → ∃ bytes, bytes.length = size ∧ Emits write bytes
  refuses : ¬ fits → ∀ ⦃draft : Draft⦄, Unbounded draft →
    ∃ fault after, write draft = .error fault after ∧ fault.OfValue

theorem Decides.congr (decided : Decides write fits size) (same : fits ↔ more) :
    Decides write more size := by
  constructor
  · intro good
    exact decided.writes (same.2 good)
  · intro bad
    exact decided.refuses (mt same.1 bad)

theorem Emits.decides {bytes : List UInt8} (emitted : Emits write bytes)
    (length : bytes.length = size) : Decides write True size := by
  constructor
  · intro _
    exact ⟨bytes, length, emitted⟩
  · intro never
    exact absurd trivial never

theorem decides_throw {fault : Fault} (ofValue : fault.OfValue) (size : Nat) :
    Decides (throw fault) False size := by
  constructor
  · intro never
    exact never.elim
  · intro _ draft _
    exact ⟨fault, draft, rfl, ofValue⟩

theorem Decides.bind (head : Decides first fits size) (tail : Decides second more other) :
    Decides (do first; second) (fits ∧ more) (size + other) := by
  constructor
  · rintro ⟨good, also⟩
    obtain ⟨front, rfl, opened⟩ := head.writes good
    obtain ⟨back, rfl, closed⟩ := tail.writes also
    exact ⟨front ++ back, List.length_append, opened.bind closed⟩
  · intro bad draft unbounded
    by_cases good : fits
    · obtain ⟨front, -, opened⟩ := head.writes good
      obtain ⟨fault, after, failed, ofValue⟩ :=
        tail.refuses (fun also => bad ⟨good, also⟩) (unbounded.add front)
      refine ⟨fault, after, ?_, ofValue⟩
      rw [bind_apply_ok (opened (unbounded.room _)), failed]
    · obtain ⟨fault, after, failed, ofValue⟩ := head.refuses good unbounded
      exact ⟨fault, after, bind_apply_error failed, ofValue⟩

/-- A write that begins with bytes of its own. -/
theorem Emits.bindDecides {bytes : List UInt8} (emitted : Emits first bytes)
    (tail : Decides second fits size) :
    Decides (do first; second) fits (bytes.length + size) := by
  have both := (emitted.decides rfl).bind tail
  rwa [true_and] at both

theorem Decides.afterWord32 (tail : Decides second fits size) (value : UInt32) :
    Decides (do word32 value; second) fits (4 + size) := by
  have decided := (emits_word32 value).bindDecides tail
  rwa [BigEndian.length_ofNat] at decided

theorem Decides.afterInt32 (tail : Decides second fits size) (value : Int32) :
    Decides (do int32 value; second) fits (4 + size) :=
  tail.afterWord32 value.toUInt32

variable {α : Type} {result : Except Fault α} {next : α → Writes Unit}

theorem decides_ofExcept_ok {value : α} (held : result = .ok value)
    (tail : Decides (next value) fits size) :
    Decides (do let value ← ofExcept result; next value) fits size := by
  subst held
  exact tail

theorem decides_ofExcept_error {fault : Fault} (held : result = .error fault)
    (ofValue : fault.OfValue) (size : Nat) :
    Decides (do let value ← ofExcept result; next value) False size := by
  subst held
  constructor
  · intro never
    exact never.elim
  · intro _ draft _
    exact ⟨fault, draft, rfl, ofValue⟩

/-- A length as a word, unless it has none. -/
theorem decides_lengthWord {next : UInt32 → Writes Unit} {length : Nat}
    (tail : length ≤ Misfit.lengthMax → Decides (next (UInt32.ofNat length)) fits size) :
    Decides (do let word ← ofExcept (lengthWord length); next word)
      (length ≤ Misfit.lengthMax ∧ fits) size := by
  by_cases short : length ≤ Misfit.lengthMax
  case pos =>
    have counted : lengthWord length = .ok (UInt32.ofNat length) := lengthWord_eq_ok.2 ⟨short, rfl⟩
    exact (decides_ofExcept_ok counted (tail short)).congr (by simp [short])
  case neg =>
    have long := lengthWord_of_long (Nat.not_le.1 short)
    exact (decides_ofExcept_error long (.encode _) _).congr (by simp [short])

theorem decides_lengthPrefixed (body : Decides write fits size) :
    Decides (lengthPrefixed write) (fits ∧ size ≤ Misfit.lengthMax) (4 + size) := by
  constructor
  · rintro ⟨good, short⟩
    obtain ⟨bytes, rfl, emitted⟩ := body.writes good
    exact ⟨boxed bytes, length_boxed bytes, emits_lengthPrefixed emitted short⟩
  · intro bad draft unbounded
    obtain ⟨placed, -⟩ := placed_of_room (unbounded.room (4 + 0))
    have opened := unbounded.add [0, 0, 0, 0]
    by_cases good : fits
    · obtain ⟨bytes, rfl, emitted⟩ := body.writes good
      have long : Misfit.lengthMax < bytes.length := by
        by_contra short
        exact bad ⟨good, Nat.not_lt.1 short⟩
      have refused := lengthPrefixed_of_long placed (emitted (opened.room _)) long
      exact ⟨_, _, refused, .encode _⟩
    · obtain ⟨fault, after, failed, ofValue⟩ := body.refuses good opened
      exact ⟨fault, after, lengthPrefixed_of_error placed failed, ofValue⟩

theorem decides_each {write : α → Writes Unit} {fits : α → Prop} {size : α → Nat} {items : List α}
    (one : ∀ item ∈ items, Decides (write item) (fits item) (size item)) :
    Decides (each write items) (∀ item ∈ items, fits item) (items.map size).sum := by
  induction items with
  | nil => exact (emits_pure.decides rfl).congr (by simp)
  | cons item items ih =>
      rw [List.forall_mem_cons, List.map_cons, List.sum_cons]
      apply (one item List.mem_cons_self).bind
      apply ih
      intro other member
      exact one other (List.mem_cons_of_mem item member)

/-! ## Whole payloads -/

theorem Decides.run_ok (decided : Decides write fits size) (good : fits) :
    ∃ bytes, write.run = .ok bytes ∧ bytes.length = size := by
  obtain ⟨bytes, length, emitted⟩ := decided.writes good
  exact ⟨bytes, run_of_emits emitted, length⟩

theorem Decides.run_error (decided : Decides write fits size) (bad : ¬ fits) :
    ∃ fault, write.run = .error fault ∧ fault.OfValue := by
  have unbounded : Unbounded (Draft.after #[] none) := ⟨Nat.le_refl _, rfl⟩
  obtain ⟨fault, after, failed, ofValue⟩ := decided.refuses bad unbounded
  refine ⟨fault, ?_, ofValue⟩
  rw [run, failed]

end Writes
end SchemaWire
