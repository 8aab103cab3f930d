import SchemaWire.Message.Client
import SchemaWire.Proofs.Wire.Exact
import SchemaWire.Proofs.Wire.Sending

/-!
# Frames of client messages

A message becomes the frame of the bytes of its fields, which are as many as it declares, unless one
of its lists is too long to be counted or the whole is too long for a frame.
-/

namespace SchemaWire

open Fallible

/-! ## Fields within the length of a frame -/

theorem NamedText.fits_of_size {item : NamedText} (short : item.size ≤ Misfit.lengthMax) :
    item.Fits := by
  simp only [size, textSize] at short
  exact ⟨by omega, by omega⟩

theorem NamedText.fits_of_arraySize {items : List NamedText}
    (short : arraySize NamedText.size items ≤ Misfit.lengthMax) : ∀ item ∈ items, item.Fits := by
  intro item member
  apply fits_of_size
  calc item.size
    _ ≤ arraySize NamedText.size items := size_le_arraySize NamedText.size member
    _ ≤ Misfit.lengthMax := short

theorem Extension.fits_iff_of_size {item : Extension} (short : item.size ≤ Misfit.lengthMax) :
    item.Fits ↔ item.annotations.length ≤ 65535 := by
  simp only [size, textSize] at short
  have listed : arraySize NamedText.size item.annotations ≤ Misfit.lengthMax := by omega
  have named : (Utf8.encode item.name).length ≤ Misfit.lengthMax := by omega
  constructor
  · intro fits
    exact fits.2.1
  · intro few
    exact ⟨named, few, NamedText.fits_of_arraySize listed⟩

namespace ClientMessage

variable {message : ClientMessage} {outbox : Outbox}

/-- The lists of a message are short enough to be counted in sixteen bits. -/
def Counted : ClientMessage → Prop
  | .handshake _ parameters extensions =>
      parameters.length ≤ 65535 ∧ extensions.length ≤ 65535 ∧
        ∀ extension ∈ extensions, extension.annotations.length ≤ 65535
  | .saslInitialResponse _ _ | .saslResponse _ | .sync | .flush | .terminate | .restoreEnd => True

/-- The frame of a message. -/
def frame (message : ClientMessage) : Frame :=
  ⟨message.opcode, Field.bytesAll message.fields⟩

theorem length_payload (message : ClientMessage) : message.frame.payload.length = message.size :=
  Field.length_bytesAll message.fields

/-- Lengths that a frame can hold are no reason to refuse a field. -/
theorem fitsAll_iff (short : message.size ≤ Misfit.lengthMax) :
    Field.FitsAll message.fields ↔ message.Counted := by
  cases message with
  | handshake version parameters extensions =>
      simp only [size, fields, Field.sizeAll, Field.size] at short
      have listed : arraySize NamedText.size parameters ≤ Misfit.lengthMax := by omega
      have named := NamedText.fits_of_arraySize listed
      have each : ∀ extension ∈ extensions,
          extension.Fits ↔ extension.annotations.length ≤ 65535 := by
        intro extension member
        have part := size_le_arraySize Extension.size member
        exact Extension.fits_iff_of_size (by omega)
      -- Only the numbers of listed items are left to fail.
      simp only [fields, Field.FitsAll, Field.Fits, Counted, true_and, and_true]
      rw [and_iff_left named, forall₂_congr each]
  | saslInitialResponse mechanism bytes =>
      simp only [size, fields, Field.sizeAll, Field.size, textSize, byteArraySize] at short
      simp only [fields, Field.FitsAll, Field.Fits, Counted, iff_true, and_true]
      exact ⟨by omega, by omega⟩
  | saslResponse bytes =>
      simp only [size, fields, Field.sizeAll, Field.size, byteArraySize] at short
      simp only [fields, Field.FitsAll, Field.Fits, Counted, iff_true, and_true]
      omega
  | sync | flush | terminate | restoreEnd => exact Iff.rfl

theorem send_of_counted (counted : message.Counted) (fits : message.size + 4 ≤ Misfit.lengthMax) :
    message.send outbox = .ok () (outbox ++ message.frame.bytes) := by
  have emits := (Field.settlesAll message.fields).emits ((fitsAll_iff (by omega)).2 counted)
  have sized : (Field.bytesAll message.fields).length = message.size := message.length_payload
  rw [← sized] at fits
  have sent := @Frame.send_of_emits message.opcode _ outbox _ emits fits
  rwa [sized] at sent

/-- What refuses a message is the length of its frame or the number of items in one of its lists,
and never that it has declared another size than it writes. -/
theorem send_of_not_counted (refused : ¬ (message.Counted ∧ message.size + 4 ≤ Misfit.lengthMax)) :
    ∃ cause, message.send outbox = .error (.encode cause) outbox := by
  rcases Nat.lt_or_ge Misfit.lengthMax (message.size + 4) with long | fits
  · exact ⟨_, Frame.send_of_long long⟩
  · have unfit : ¬ Field.FitsAll message.fields := by
      intro good
      exact refused ⟨(fitsAll_iff (by omega)).1 good, fits⟩
    have room : (Frame.opened message.opcode message.size outbox).Room
        (Field.bytesAll message.fields).length :=
      Frame.room_opened_iff.2 (Nat.le_of_eq message.length_payload)
    obtain ⟨cause, after, failed⟩ := (Field.settlesAll message.fields).refuses unfit room
    refine ⟨cause, ?_⟩
    exact Frame.send_of_failed fits (Field.keeps_writeAll message.fields _) failed

theorem bytes_of_counted (counted : message.Counted)
    (fits : message.size + 4 ≤ Misfit.lengthMax) :
    message.bytes = .ok message.frame.bytes := by
  rw [ClientMessage.bytes, send_of_counted counted fits]
  simp

theorem send_eq_ok {after : Outbox} (sent : message.send outbox = .ok () after) :
    message.Counted ∧ message.size + 4 ≤ Misfit.lengthMax ∧
      after = outbox ++ message.frame.bytes := by
  by_cases good : message.Counted ∧ message.size + 4 ≤ Misfit.lengthMax
  · rw [send_of_counted good.1 good.2] at sent
    exact ⟨good.1, good.2, (EStateM.Result.ok.inj sent).2.symm⟩
  · obtain ⟨cause, failed⟩ := @send_of_not_counted message outbox good
    simp [failed] at sent

/-- What is refused leaves nothing behind. -/
theorem send_eq_error {fault : Fault} {after : Outbox}
    (failed : message.send outbox = .error fault after) :
    (∃ cause, fault = .encode cause) ∧ after = outbox := by
  by_cases good : message.Counted ∧ message.size + 4 ≤ Misfit.lengthMax
  · simp [send_of_counted good.1 good.2] at failed
  · obtain ⟨cause, refused⟩ := @send_of_not_counted message outbox good
    rw [refused] at failed
    obtain ⟨rfl, rfl⟩ := EStateM.Result.error.inj failed
    exact ⟨⟨cause, rfl⟩, rfl⟩

/-- A message is spelled by what it leaves in an empty outbox. -/
theorem send_empty_eq_ok {after : Outbox} :
    message.send #[] = .ok () after ↔ message.bytes = .ok after.toList := by
  rw [ClientMessage.bytes]
  cases message.send #[] with
  | ok _ sent => simp
  | error fault left => simp

theorem bytes_eq_ok {bytes : List UInt8} :
    message.bytes = .ok bytes ↔
      message.Counted ∧ message.size + 4 ≤ Misfit.lengthMax ∧ message.frame.bytes = bytes := by
  constructor
  · intro made
    obtain ⟨counted, fits, same⟩ := send_eq_ok (send_empty_eq_ok.2 made)
    refine ⟨counted, fits, ?_⟩
    simpa using (congrArg Array.toList same).symm
  · rintro ⟨counted, fits, rfl⟩
    exact bytes_of_counted counted fits

/-- A frame has an opcode at least. -/
theorem ne_nil_of_bytes {bytes : List UInt8} (made : message.bytes = .ok bytes) : bytes ≠ [] := by
  obtain ⟨-, -, rfl⟩ := bytes_eq_ok.1 made
  exact List.cons_ne_nil _ _

theorem size_saslResponse (bytes : List UInt8) :
    (saslResponse bytes).size = (boxed bytes).length := by
  rw [length_boxed]
  rfl

theorem saslResponse_bytes {bytes : List UInt8}
    (fits : (saslResponse bytes).size + 4 ≤ Misfit.lengthMax) :
    (saslResponse bytes).bytes = .ok (Frame.bytes ⟨0x72, boxed bytes⟩) := by
  have sent := @bytes_of_counted (saslResponse bytes) trivial fits
  rwa [frame, fields, Field.bytesAll, Field.bytesAll, List.append_nil] at sent

theorem saslInitialResponse_bytes {mechanism : String} {bytes : List UInt8}
    (fits : (saslInitialResponse mechanism bytes).size + 4 ≤ Misfit.lengthMax) :
    (saslInitialResponse mechanism bytes).bytes =
      .ok (Frame.bytes ⟨0x70, boxed (Utf8.encode mechanism) ++ boxed bytes⟩) := by
  have sent := @bytes_of_counted (saslInitialResponse mechanism bytes) trivial fits
  rwa [frame, fields, Field.bytesAll, Field.bytesAll, Field.bytesAll, List.append_nil] at sent

end ClientMessage
end SchemaWire
