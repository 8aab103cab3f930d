import SchemaWire.Proofs.Wire.Drafting
import SchemaWire.Wire.Script

/-!
# Drafts only grow

Whatever is written, and whether it succeeds or fails, a draft keeps the bytes that it had and stays
within its bound; a length that takes the place of other bytes takes only the place held for it.
-/

namespace SchemaWire

namespace Draft

variable {origin draft : Draft} {bytes : List UInt8}

/-- A draft has come from another by bytes for which there was room. -/
def Grown (origin draft : Draft) : Prop :=
  ∃ bytes, origin.Room bytes.length ∧ draft = origin.add bytes

theorem Grown.refl (room : draft.Room 0) : draft.Grown draft := by
  refine ⟨[], room, ?_⟩
  rw [add_nil]

theorem Grown.room (grown : origin.Grown draft) : draft.Room 0 := by
  obtain ⟨bytes, room, rfl⟩ := grown
  exact room.add

theorem Grown.add (grown : origin.Grown draft) (room : draft.Room bytes.length) :
    origin.Grown (draft.add bytes) := by
  obtain ⟨front, begun, rfl⟩ := grown
  refine ⟨front ++ bytes, ?_, add_add origin front bytes⟩
  rw [List.length_append]
  exact room.of_add begun.begun

end Draft

namespace Writes

open Fallible

variable {origin : Draft} {α : Type}

theorem keeps_reserve (length : Nat) : Keeps origin.Grown (reserve length) := by
  refine keeps_of_unchanged fun draft => ?_
  rw [reserve]
  split
  case h_1 => exact .inl ⟨(), rfl⟩
  case h_2 limit _ => exact .inr ⟨_, rfl⟩

theorem keeps_ofExcept (result : Except Fault α) : Keeps origin.Grown (ofExcept result) := by
  cases result with
  | ok value => exact keeps_pure value
  | error fault => exact keeps_throw fault

theorem put_of_broken {draft : Draft} {bytes : List UInt8} {limit : Nat}
    (broken : draft.broken? bytes.length = some limit) :
    put bytes draft = .error (.framing (.overflow bytes.length limit draft.written)) draft := by
  rw [put, bind_apply_error (reserve_of_broken broken)]

theorem keeps_put (bytes : List UInt8) : Keeps origin.Grown (put bytes) := by
  intro draft grown
  cases bound : draft.broken? bytes.length with
  | none =>
      have room : draft.Room bytes.length := ⟨grown.room.begun, bound⟩
      exact kept_of_ok (emits_put bytes room) (grown.add room)
  | some limit => exact kept_of_error (put_of_broken bound) grown

theorem keeps_byteArray (bytes : Option (List UInt8)) : Keeps origin.Grown (byteArray bytes) := by
  cases bytes with
  | none => exact keeps_put _
  | some bytes =>
      refine (keeps_reserve _).bind fun _ => ?_
      refine (keeps_ofExcept _).bind fun word => ?_
      refine (keeps_put _).bind fun _ => ?_
      exact keeps_put bytes

theorem keeps_each {write : α → Writes Unit} (one : ∀ item, Keeps origin.Grown (write item))
    (items : List α) : Keeps origin.Grown (each write items) := by
  induction items with
  | nil => exact keeps_pure ()
  | cons item items ih => exact (one item).bind fun _ => ih

theorem keeps_array {write : α → Writes Unit} (one : ∀ item, Keeps origin.Grown (write item))
    (items : List α) : Keeps origin.Grown (array write items) := by
  refine (keeps_ofExcept _).bind fun word => ?_
  refine (keeps_put _).bind fun _ => ?_
  exact keeps_each one items

theorem keeps_attempt {write : Writes Unit} (kept : Keeps origin.Grown write) :
    Keeps origin.Grown (attempt write) := by
  intro draft grown
  obtain ⟨done, failed⟩ := kept draft grown
  cases ran : write draft with
  | ok _ after => simp [attempt, ran, done () after ran]
  | error fault after => simp [attempt, ran, failed fault after ran]

/-- What becomes of a draft when a body is written after its length. -/
inductive Boxing (body : Writes Unit) (draft : Draft) : EStateM.Result Fault Draft Unit → Prop where
  /-- There is no room for the length. -/
  | refused {limit : Nat} (broken : draft.broken? 4 = some limit) :
      Boxing body draft (.error (.framing (.overflow 4 limit draft.written)) draft)
  /-- The body fails, and what it has written stays behind the place held for its length. -/
  | failed {fault : Fault} {bytes : List UInt8}
      (left : (draft.add [0, 0, 0, 0]).Room bytes.length)
      (ran : body (draft.add [0, 0, 0, 0]) = .error fault ((draft.add [0, 0, 0, 0]).add bytes)) :
      Boxing body draft (.error fault ((draft.add [0, 0, 0, 0]).add bytes))
  /-- The body is written, and is longer than a length can tell. -/
  | long {bytes : List UInt8} (left : (draft.add [0, 0, 0, 0]).Room bytes.length)
      (ran : body (draft.add [0, 0, 0, 0]) = .ok () ((draft.add [0, 0, 0, 0]).add bytes))
      (long : Misfit.lengthMax < bytes.length) :
      Boxing body draft
        (.error (.encode (.length bytes.length)) ((draft.add [0, 0, 0, 0]).add bytes))
  /-- The body is written, and its length takes the place held for it. -/
  | whole {bytes : List UInt8} (left : (draft.add [0, 0, 0, 0]).Room bytes.length)
      (ran : body (draft.add [0, 0, 0, 0]) = .ok () ((draft.add [0, 0, 0, 0]).add bytes))
      (fits : bytes.length ≤ Misfit.lengthMax) :
      Boxing body draft (.ok () (draft.add (boxed bytes)))

variable {body : Writes Unit} {draft : Draft}

/-- What the body adds is counted from the place held for its length, which it cannot reach. -/
theorem boxing_lengthPrefixed (kept : ∀ origin : Draft, Keeps origin.Grown body)
    (begun : draft.start ≤ draft.buffer.size) : Boxing body draft (lengthPrefixed body draft) := by
  cases bound : draft.broken? 4 with
  | some limit =>
      have refused : int32 0 draft = .error (.framing (.overflow 4 limit draft.written)) draft :=
        put_of_broken bound
      rw [lengthPrefixed, bind_apply_error refused]
      exact .refused bound
  | none =>
      have room : draft.Room (4 + 0) := ⟨begun, bound⟩
      obtain ⟨placed, opened⟩ := placed_of_room room
      obtain ⟨done, lost⟩ := kept _ _ (Draft.Grown.refl opened)
      cases ran : body (draft.add [0, 0, 0, 0]) with
      | error fault after =>
          obtain ⟨bytes, left, rfl⟩ := lost fault after ran
          rw [lengthPrefixed_of_error placed ran]
          exact .failed left ran
      | ok _ after =>
          obtain ⟨bytes, left, rfl⟩ := done () after ran
          rcases Nat.lt_or_ge Misfit.lengthMax bytes.length with long | fits
          · rw [lengthPrefixed_of_long placed ran long]
            exact .long left ran long
          · rw [lengthPrefixed_of_body placed ran fits]
            exact .whole left ran fits

/-- The place that is held for a length is the only one that is written to twice. -/
theorem keeps_lengthPrefixed (kept : ∀ origin : Draft, Keeps origin.Grown body) :
    Keeps origin.Grown (lengthPrefixed body) := by
  intro draft grown
  have begun := grown.room.begun
  have behind {bytes : List UInt8} (left : (draft.add [0, 0, 0, 0]).Room bytes.length) :
      origin.Grown ((draft.add [0, 0, 0, 0]).add bytes) := by
    rw [Draft.add_add]
    refine grown.add ?_
    rw [List.length_append]
    exact left.of_add begun
  have boxing := boxing_lengthPrefixed kept begun
  constructor
  · intro _ after done
    rw [done] at boxing
    cases boxing with
    | @whole bytes left ran fits =>
        have room : draft.Room (boxed bytes).length := by
          rw [length_boxed]
          exact left.of_add begun
        exact grown.add room
  · intro fault after lost
    rw [lost] at boxing
    cases boxing with
    | refused => exact grown
    | failed left => exact behind left
    | long left => exact behind left

end Writes

open Fallible

variable {origin : Draft}

theorem NamedText.keeps_write (item : NamedText) : Keeps origin.Grown item.write := by
  refine (Writes.keeps_byteArray _).bind fun _ => ?_
  exact Writes.keeps_byteArray _

theorem Attribute.keeps_write (item : Attribute) : Keeps origin.Grown item.write := by
  refine (Writes.keeps_put _).bind fun _ => ?_
  exact Writes.keeps_byteArray item.value

theorem Extension.keeps_write (item : Extension) : Keeps origin.Grown item.write := by
  refine (Writes.keeps_byteArray _).bind fun _ => ?_
  exact Writes.keeps_array NamedText.keeps_write _

mutual

theorem Field.keeps_write : (field : Field) → (origin : Draft) → Keeps origin.Grown field.write
  | .byte _, _ | .bool _, _ | .int16 _, _ | .word16 _, _ | .int32 _, _ | .word32 _, _
  | .int64 _, _ | .word64 _, _ | .float32 _, _ | .float64 _, _ | .uuid _, _ | .raw _, _ =>
      Writes.keeps_put _
  | .byteArray bytes, _ => Writes.keeps_byteArray bytes
  | .text content, _ => Writes.keeps_byteArray (some (Utf8.encode content))
  | .named items, _ => Writes.keeps_array NamedText.keeps_write items
  | .attributes items, _ => Writes.keeps_array Attribute.keeps_write items
  | .extension item, _ => item.keeps_write
  | .extensions items, _ => Writes.keeps_array Extension.keeps_write items
  | .lengthPrefixed fields, _ => Writes.keeps_lengthPrefixed (Field.keeps_writeAll fields)

theorem Field.keeps_writeAll : (fields : List Field) → (origin : Draft) →
    Keeps origin.Grown (Field.writeAll fields)
  | [], _ => keeps_pure ()
  | field :: fields, origin =>
      (Field.keeps_write field origin).bind fun _ => Field.keeps_writeAll fields origin

end

/-- Whatever a program writes, the draft has only grown. -/
theorem Script.keeps_perform (script : Script) (origin : Draft) :
    Keeps origin.Grown script.perform := by
  induction script generalizing origin with
  | done result => exact Writes.keeps_ofExcept result
  | look next ih => exact keeps_get_bind fun draft _ => ih draft origin
  | field item next ih =>
      have written := Writes.keeps_attempt (item.keeps_write origin)
      exact written.bind fun outcome => ih outcome origin
  | lengthPrefixed body next ihBody ihNext =>
      have boxed := Writes.keeps_attempt (@Writes.keeps_lengthPrefixed origin body.perform ihBody)
      exact boxed.bind fun outcome => ihNext outcome origin

end SchemaWire
