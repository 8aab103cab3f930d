import SchemaWire.Frame
import SchemaWire.Proofs.Wire.Growing

/-!
# Frames whole or not at all

A payload grows behind the type and the length of its frame, and never beyond the size that its
message has declared.  So either all of the size has been written, and the frame is added whole to
what waits to be sent, or what has been written of it is taken back.
-/

namespace SchemaWire
namespace Frame

open Fallible

variable {opcode : UInt8} {size : Nat} {payload : Writes Unit} {outbox : Outbox}

/-- The draft of a payload of a declared size, behind the type and the length of its frame. -/
def opened (opcode : UInt8) (size : Nat) (outbox : Outbox) : Draft :=
  Draft.after (outbox.push opcode ++ BigEndian.ofNat 4 (size + 4)) (some size)

theorem room_opened_iff {length : Nat} :
    (opened opcode size outbox).Room length ↔ length ≤ size := by
  rw [opened, Draft.room_after_iff]
  simp

theorem written_add_opened (bytes : List UInt8) :
    ((opened opcode size outbox).add bytes).written = bytes.length := by
  rw [Draft.written_add (room_opened_iff.2 (Nat.zero_le size)).begun, opened,
    Draft.written_after, Nat.zero_add]

theorem buffer_add_opened (bytes : List UInt8) :
    ((opened opcode size outbox).add bytes).buffer =
      outbox ++ opcode :: (BigEndian.ofNat 4 (size + 4) ++ bytes) := by
  apply Array.ext'
  simp [opened, Draft.after]

/-! ## Frames before anything is taken back -/

theorem compose_of_long (large : Misfit.lengthMax < size + 4) :
    compose opcode size payload outbox =
      .error (.encode (.length (size + 4))) (outbox.push opcode) := by
  rw [compose, Writes.lengthWord_of_long large]

theorem compose_of_fits (fits : size + 4 ≤ Misfit.lengthMax) :
    compose opcode size payload outbox =
      match payload (opened opcode size outbox) with
      | .error fault draft => .error fault draft.buffer
      | .ok () draft =>
          if draft.written = size then
            .ok () draft.buffer
          else
            .error (.framing (.underfilled opcode size draft.written)) draft.buffer := by
  have counted : Writes.lengthWord (size + 4) = .ok (UInt32.ofNat (size + 4)) :=
    Writes.lengthWord_eq_ok.2 ⟨fits, rfl⟩
  simp only [compose, counted, Writes.toNat_lengthWord fits]
  rfl

theorem compose_of_emits {bytes : List UInt8} (emits : payload.Emits bytes)
    (fits : bytes.length + 4 ≤ Misfit.lengthMax) :
    compose opcode bytes.length payload outbox =
      .ok () (outbox ++ Frame.bytes ⟨opcode, bytes⟩) := by
  rw [compose_of_fits fits, emits (room_opened_iff.2 (Nat.le_refl _))]
  simp only [written_add_opened, buffer_add_opened, ↓reduceIte, Frame.bytes]

theorem send_of_emits {bytes : List UInt8} (emits : payload.Emits bytes)
    (fits : bytes.length + 4 ≤ Misfit.lengthMax) :
    send opcode bytes.length payload outbox =
      .ok () (outbox ++ Frame.bytes ⟨opcode, bytes⟩) := by
  rw [send, compose_of_emits emits fits]

/-! ## Frames of whatever is written -/

theorem shrink_append (outbox : Outbox) (bytes : List UInt8) :
    (outbox ++ bytes).shrink outbox.size = outbox := by
  apply Array.ext'
  rw [Array.toList_shrink, Array.toList_appendList, ← Array.length_toList, List.take_left]

/-- Why a frame is not sent. -/
inductive Refused (opcode : UInt8) (size : Nat) (payload : Writes Unit) (outbox : Outbox) :
    Fault → Prop where
  /-- The declared size does not fit the length of a frame. -/
  | long (large : Misfit.lengthMax < size + 4) :
      Refused opcode size payload outbox (.encode (.length (size + 4)))
  /-- The payload fails to be written. -/
  | failed {fault : Fault} {after : Draft} (fits : size + 4 ≤ Misfit.lengthMax)
      (ran : payload (opened opcode size outbox) = .error fault after) :
      Refused opcode size payload outbox fault
  /-- The payload is written, and is shorter than it was declared. -/
  | short {bytes : List UInt8} (fits : size + 4 ≤ Misfit.lengthMax) (under : bytes.length < size)
      (ran : payload (opened opcode size outbox) = .ok () ((opened opcode size outbox).add bytes)) :
      Refused opcode size payload outbox (.framing (.underfilled opcode size bytes.length))

theorem send_of_error {fault : Fault} {bytes : List UInt8}
    (failed : compose opcode size payload outbox = .error fault (outbox ++ bytes)) :
    send opcode size payload outbox = .error fault outbox := by
  rw [send, failed]
  exact congrArg (EStateM.Result.error fault) (shrink_append outbox bytes)

theorem send_of_long (large : Misfit.lengthMax < size + 4) :
    send opcode size payload outbox = .error (.encode (.length (size + 4))) outbox := by
  have pushed : outbox.push opcode = outbox ++ [opcode] := by
    apply Array.ext'
    simp
  have failed := @compose_of_long opcode size payload outbox large
  rw [pushed] at failed
  exact send_of_error failed

theorem send_of_failed {fault : Fault} {after : Draft} (fits : size + 4 ≤ Misfit.lengthMax)
    (grows : Keeps (opened opcode size outbox).Grown payload)
    (failed : payload (opened opcode size outbox) = .error fault after) :
    send opcode size payload outbox = .error fault outbox := by
  have empty : (opened opcode size outbox).Room 0 := room_opened_iff.2 (Nat.zero_le size)
  obtain ⟨bytes, -, rfl⟩ := (grows _ (.refl empty)).2 fault after failed
  have composed := @compose_of_fits opcode size payload outbox fits
  simp only [failed, buffer_add_opened] at composed
  exact send_of_error composed

/-- Whatever a program writes for a payload of a declared size: either it writes just this size, and
the frame is added whole to what waits to be sent, or nothing is added, for one of three reasons. -/
theorem send_whole_or_nothing (opcode : UInt8) (size : Nat) (script : Script) (outbox : Outbox) :
    (∃ payload : List UInt8, payload.length = size ∧ size + 4 ≤ Misfit.lengthMax ∧
      script.perform (opened opcode size outbox) =
        .ok () ((opened opcode size outbox).add payload) ∧
      send opcode size script.perform outbox =
        .ok () (outbox ++ opcode :: (BigEndian.ofNat 4 (size + 4) ++ payload))) ∨
    ∃ fault, Refused opcode size script.perform outbox fault ∧
      send opcode size script.perform outbox = .error fault outbox := by
  rcases Nat.lt_or_ge Misfit.lengthMax (size + 4) with large | fits
  · exact .inr ⟨_, .long large, send_of_long large⟩
  have grows := script.keeps_perform (opened opcode size outbox)
  cases ran : script.perform (opened opcode size outbox) with
  | error fault after => exact .inr ⟨fault, .failed fits ran, send_of_failed fits grows ran⟩
  | ok _ after =>
      have empty : (opened opcode size outbox).Room 0 := room_opened_iff.2 (Nat.zero_le size)
      obtain ⟨bytes, room, rfl⟩ := (grows _ (.refl empty)).1 () after ran
      have composed := @compose_of_fits opcode size script.perform outbox fits
      simp only [ran, written_add_opened, buffer_add_opened] at composed
      -- The bound has kept the payload from growing beyond the declared size.
      rcases Nat.lt_or_eq_of_le (room_opened_iff.1 room) with under | full
      · rw [if_neg (Nat.ne_of_lt under)] at composed
        exact .inr ⟨_, .short fits under ran, send_of_error composed⟩
      · rw [if_pos full] at composed
        refine .inl ⟨bytes, full, fits, rfl, ?_⟩
        rw [send, composed]

/-- A write beyond the declared size changes nothing, even if the program goes on after it. -/
example :
    send 0x3F 5 (Script.lengthPrefixed
      (.field (.byte 7) fun _ => .field (.word32 1) fun _ => .done (.ok ())) .done).perform #[1] =
        .ok () #[1, 0x3F, 0, 0, 0, 9, 0, 0, 0, 1, 7] :=
  rfl

end Frame
end SchemaWire
