import SchemaWire.Wire.Draft
import SchemaWire.Wire.Cursor

/-!
# Frames

A message travels as one byte for its type, four bytes for its length with these four counted in,
and its payload.  Frames are written whole or not at all, and split from a stream of bytes only
once all of their bytes are there.
-/

namespace SchemaWire

/-- A message as it travels. -/
structure Frame where
  /-- The byte that tells the type of the message. -/
  opcode : UInt8
  /-- What follows the length. -/
  payload : List UInt8
  deriving DecidableEq, Repr

/-- The format of a type of message. -/
structure Format (α : Type) where
  /-- The byte that tells the type. -/
  opcode : UInt8
  /-- How the fields of the payload are read. -/
  read : Reads α

/-- The message of a whole payload. -/
def Format.ofPayload {α : Type} (format : Format α) (payload : List UInt8) : Except Fault α :=
  (Reads.whole format.read).run payload

/-- The same format for messages seen as others. -/
def Format.map {α β : Type} (format : Format α) (view : α → β) : Format β where
  opcode := format.opcode
  read := do
    let message ← format.read
    pure (view message)

/-- Bytes that wait to be sent. -/
abbrev Outbox := Array UInt8

/-- A computation that adds to what waits to be sent. -/
abbrev Sends (α : Type) := EStateM Fault Outbox α

namespace Frame

/-- The bytes of a frame. -/
def bytes (frame : Frame) : List UInt8 :=
  frame.opcode :: (BigEndian.ofNat 4 (frame.payload.length + 4) ++ frame.payload)

/-- Add a frame of a declared payload size; a failure may leave a part of it behind. -/
def compose (opcode : UInt8) (size : Nat) (payload : Writes Unit) : Sends Unit := fun outbox =>
  let outbox := outbox.push opcode
  match Writes.lengthWord (size + 4) with
  | .error fault => .error fault outbox
  | .ok length =>
      match payload (Draft.after (outbox ++ BigEndian.ofNat 4 length.toNat) (some size)) with
      | .error fault draft => .error fault draft.buffer
      | .ok () draft =>
          if draft.written = size then
            .ok () draft.buffer
          else
            .error (.framing (.underfilled opcode size draft.written)) draft.buffer

/-- Add a frame of a declared payload size, or nothing if that fails. -/
def send (opcode : UInt8) (size : Nat) (payload : Writes Unit) : Sends Unit := fun outbox =>
  let origin := outbox.size
  match compose opcode size payload outbox with
  | .ok () outbox => .ok () outbox
  | .error fault outbox => .error fault (outbox.shrink origin)

/-- Read the payload of a frame as a message of one type. -/
def readAs {α : Type} (frame : Frame) (format : Format α) : Except Fault α :=
  if frame.opcode = format.opcode then
    format.ofPayload frame.payload
  else
    .error (.protocol (.otherMessage format.opcode frame.opcode))

end Frame

/-- Bytes that have been received and not yet split into frames. -/
structure Inbox where
  /-- The bytes. -/
  bytes : List UInt8
  /-- The largest length that a frame may declare. -/
  limit : Nat
  deriving DecidableEq, Repr

namespace Inbox

/-- An inbox without bytes. -/
def empty (limit : Nat) : Inbox := ⟨[], limit⟩

/-- Take in received bytes. -/
def extend (inbox : Inbox) (bytes : List UInt8) : Inbox :=
  { inbox with bytes := inbox.bytes ++ bytes }

/-- The length that four bytes declare, if a frame may have it. -/
def frameLength (limit : Nat) (opcode : UInt8) (bytes : List UInt8) : Except Fault Nat :=
  let declared := (UInt32.ofNat (BigEndian.toNat bytes)).toInt32.toInt
  if declared < 4 then
    .error (.framing (.frameLength opcode declared))
  else if limit < declared.toNat then
    .error (.framing (.frameLimit opcode declared.toNat limit))
  else
    .ok declared.toNat

/-- Split off the first frame.  There is none as long as some of its bytes are missing, and a
length that no frame may have stays in the way of all that follows. -/
def next (inbox : Inbox) : Except Fault (Option (Frame × Inbox)) :=
  match inbox.bytes with
  | opcode :: a :: b :: c :: d :: rest =>
      match frameLength inbox.limit opcode [a, b, c, d] with
      | .error fault => .error fault
      | .ok length =>
          match pass (length - 4) [] rest with
          | none => .ok none
          | some (payload, rest) =>
              .ok (some (⟨opcode, payload.reverse⟩, { inbox with bytes := rest }))
  | _ => .ok none

/-- A declared length is the number that its four bytes spell, and lies between the bounds. -/
theorem frameLength_eq_ok {limit : Nat} {opcode : UInt8} {bytes : List UInt8} {length : Nat}
    (four : bytes.length = 4) (h : frameLength limit opcode bytes = .ok length) :
    length = BigEndian.toNat bytes ∧ 4 ≤ length ∧ length ≤ limit := by
  have small : BigEndian.toNat bytes < 4294967296 := by
    have bound := BigEndian.toNat_lt bytes
    rw [four] at bound
    exact bound
  have declared := BigEndian.toInt_toInt32_ofNat _ small
  rw [frameLength] at h
  split at h
  case isTrue => simp at h
  case isFalse atLeast =>
    split at h
    case isTrue => simp at h
    case isFalse atMost =>
      simp only [Except.ok.injEq] at h
      split at declared <;> omega

/-- A frame that is split off and what stays are the bytes that were there. -/
theorem bytes_of_next {inbox rest : Inbox} {frame : Frame}
    (h : inbox.next = .ok (some (frame, rest))) :
    inbox.bytes = frame.bytes ++ rest.bytes ∧ rest.limit = inbox.limit := by
  rw [next] at h
  split at h
  case h_2 => simp at h
  case h_1 opcode a b c d tail bytes =>
    split at h
    case h_1 => simp at h
    case h_2 length declared =>
      obtain ⟨value, least, -⟩ := frameLength_eq_ok rfl declared
      rw [pass_eq] at h
      split at h
      case h_1 => simp at h
      case h_2 taken left passed =>
        split at passed
        case isFalse => simp at passed
        case isTrue enough =>
          simp only [Option.some.injEq, Prod.mk.injEq, List.append_nil] at passed
          simp only [Except.ok.injEq, Option.some.injEq, Prod.mk.injEq] at h
          obtain ⟨rfl, rfl⟩ := passed
          obtain ⟨rfl, rfl⟩ := h
          have word : BigEndian.ofNat 4 length = [a, b, c, d] := by
            rw [value]
            exact BigEndian.ofNat_toNat [a, b, c, d]
          have full : (tail.take (length - 4)).length + 4 = length := by
            rw [List.length_take]
            omega
          refine ⟨?_, rfl⟩
          rw [bytes, Frame.bytes]
          simp only [List.reverse_reverse, full, word]
          simp

theorem length_lt_of_next {inbox rest : Inbox} {frame : Frame}
    (h : inbox.next = .ok (some (frame, rest))) : rest.bytes.length < inbox.bytes.length := by
  rw [(bytes_of_next h).1, List.length_append, Frame.bytes, List.length_cons]
  omega

/-- Split off frames as long as there is a whole one: the frames, what stays, and what stands in
the way of a further frame, if anything does. -/
def drain (inbox : Inbox) : List Frame × Inbox × Option Fault :=
  match _ : inbox.next with
  | .error fault => ([], inbox, some fault)
  | .ok none => ([], inbox, none)
  | .ok (some (frame, rest)) =>
      let (frames, left) := drain rest
      (frame :: frames, left)
termination_by inbox.bytes.length
decreasing_by exact length_lt_of_next (by assumption)

end Inbox
end SchemaWire
