import SchemaWire.Proofs.Message.Client
import SchemaWire.Proofs.Wire.Shape
import SchemaWire.Proofs.Wire.Splitting

/-!
# Client messages arrive

Messages that have been sent one after the other come out of an inbox as the same messages in the
same order: each is the next frame, and the kinds of its fields are all that is needed to read them
back.
-/

namespace SchemaWire

open Fallible

/-! ## Frames in a row -/

namespace Inbox

variable {limit : Nat} {opcode : UInt8} {frame : Frame}

/-- A frame may travel into an inbox: its length can be spelled and is within the limit. -/
structure Admits (limit : Nat) (frame : Frame) : Prop where
  spelled : frame.payload.length + 4 ≤ Misfit.lengthMax
  within : frame.payload.length + 4 ≤ limit

theorem frameLength_of_fits {length : Nat} (least : 4 ≤ length)
    (spelled : length ≤ Misfit.lengthMax) (within : length ≤ limit) :
    frameLength limit opcode (BigEndian.ofNat 4 length) = .ok length := by
  have below : length < 2147483648 := Nat.lt_of_le_of_lt spelled (by decide)
  have value : BigEndian.toNat (BigEndian.ofNat 4 length) = length := by
    rw [BigEndian.toNat_ofNat, Nat.mod_eq_of_lt]
    exact Nat.lt_trans below (by decide)
  have declared := BigEndian.toInt_toInt32_ofNat length (by omega)
  rw [if_pos below] at declared
  rw [frameLength, value, declared, if_neg (by omega), Int.toNat_natCast,
    if_neg (Nat.not_lt.2 within)]

theorem next_of_frame (admitted : Admits limit frame) (tail : List UInt8) :
    next ⟨frame.bytes ++ tail, limit⟩ = .ok (some (frame, ⟨tail, limit⟩)) := by
  have declared := @frameLength_of_fits limit frame.opcode (frame.payload.length + 4)
    (Nat.le_add_left _ _) admitted.spelled admitted.within
  obtain ⟨a, b, c, d, word⟩ : ∃ a b c d,
      BigEndian.ofNat 4 (frame.payload.length + 4) = [a, b, c, d] := ⟨_, _, _, _, rfl⟩
  have full : (⟨frame.bytes ++ tail, limit⟩ : Inbox).bytes =
      frame.opcode :: a :: b :: c :: d :: (frame.payload ++ tail) := by
    simp [Frame.bytes, word]
  rw [next_of_bytes full, ← word]
  simp only [declared, Nat.add_sub_cancel, List.take_left, List.drop_left, List.length_append,
    Nat.le_add_right, ↓reduceIte]

theorem run_frames (frames : List Frame) (admitted : ∀ frame ∈ frames, Admits limit frame) :
    run ⟨frames.flatMap Frame.bytes, limit⟩ (List.replicate (frames.length + 1) .next) =
      (frames.map (fun frame => .ok (some frame)) ++ [.ok none], empty limit) := by
  induction frames with
  | nil => rfl
  | cons frame frames ih =>
      rw [List.forall_mem_cons] at admitted
      have first := receive_of_some (next_of_frame admitted.1 (frames.flatMap Frame.bytes))
      rw [List.length_cons, List.replicate_succ, run_next, List.flatMap_cons, first]
      simp only [ih admitted.2]
      rfl

end Inbox

/-! ## Messages in a row -/

namespace ClientMessage

/-- The kinds of the fields of a message. -/
def layout : ClientMessage → List Shape
  | .handshake _ _ _ => [.word16, .word16, .named, .extensions]
  | .saslInitialResponse _ _ => [.text, .byteArray]
  | .saslResponse _ => [.byteArray]
  | .sync | .flush | .terminate | .restoreEnd => []

/-- A frame carries a message: it tells its type and has its size, and who knows the kinds of the
fields reads them off the payload, and nothing is left. -/
structure Carried (message : ClientMessage) (frame : Frame) : Prop where
  opcode : frame.opcode = message.opcode
  size : frame.payload.length = message.size
  read : (Reads.whole (Shape.readAll message.layout)).run frame.payload =
    .ok (message.fields.map Field.seen)

theorem layout_fields (message : ClientMessage) :
    List.Forall₂ (fun field shape => field.shape? = some shape) message.fields message.layout := by
  cases message <;> simp [fields, layout, Field.shape?]

theorem carried_frame {message : ClientMessage} (counted : message.Counted)
    (fits : message.size + 4 ≤ Misfit.lengthMax) : message.Carried message.frame where
  opcode := rfl
  size := message.length_payload
  read := by
    have good : Field.FitsAll message.fields := (fitsAll_iff (by omega)).2 counted
    have taken := Field.takes_readAll message.layout_fields good
    exact taken.takesAll.run_whole

theorem forM_send_eq_ok {messages : List ClientMessage} {outbox sent : Outbox}
    (done : messages.forM send outbox = .ok () sent) :
    (∀ message ∈ messages, message.Counted ∧ message.size + 4 ≤ Misfit.lengthMax) ∧
      sent.toList = outbox.toList ++ (messages.map frame).flatMap Frame.bytes := by
  induction messages generalizing outbox with
  | nil =>
      obtain ⟨-, rfl⟩ := EStateM.Result.ok.inj done
      simp
  | cons message messages ih =>
      obtain ⟨_, after, first, others⟩ := bind_apply_eq_ok.1 done
      obtain ⟨counted, fits, rfl⟩ := send_eq_ok first
      obtain ⟨good, content⟩ := ih others
      constructor
      · exact List.forall_mem_cons.2 ⟨⟨counted, fits⟩, good⟩
      · rw [content, Array.toList_appendList, List.map_cons, List.flatMap_cons, List.append_assoc]

/-- A message is sent if and only if its lists can be counted and its size fits a frame, and what
refuses it is never that it has declared another size than it writes; messages that have been sent
one after the other come out of an inbox that admits them as the same messages, with nothing left,
and are read back field by field. -/
theorem sent_and_received :
    (∀ (message : ClientMessage) (outbox : Outbox),
      ((∃ after, message.send outbox = .ok () after) ↔
        message.Counted ∧ message.size + 4 ≤ Misfit.lengthMax) ∧
      ∀ fault after, message.send outbox = .error fault after →
        (∃ cause, fault = .encode cause) ∧ after = outbox) ∧
    ∀ (messages : List ClientMessage) (sent : Outbox) (limit : Nat),
      messages.forM send #[] = .ok () sent → (∀ message ∈ messages, message.size + 4 ≤ limit) →
        ∃ frames, List.Forall₂ Carried messages frames ∧
          sent.toList = frames.flatMap Frame.bytes ∧
          (Inbox.empty limit).run
              (.extend sent.toList :: List.replicate (messages.length + 1) .next) =
            (frames.map (fun frame => .ok (some frame)) ++ [.ok none], Inbox.empty limit) := by
  constructor
  · intro message outbox
    refine ⟨⟨?_, ?_⟩, ?_⟩
    · rintro ⟨after, sent⟩
      obtain ⟨counted, fits, -⟩ := send_eq_ok sent
      exact ⟨counted, fits⟩
    · rintro ⟨counted, fits⟩
      exact ⟨_, send_of_counted counted fits⟩
    · intro fault after failed
      exact send_eq_error failed
  · intro messages sent limit done within
    obtain ⟨good, content⟩ := forM_send_eq_ok done
    have carried : List.Forall₂ Carried messages (messages.map frame) := by
      rw [List.forall₂_map_right_iff, List.forall₂_same]
      intro message member
      obtain ⟨counted, fits⟩ := good message member
      exact carried_frame counted fits
    have admitted : ∀ other ∈ messages.map frame, Inbox.Admits limit other := by
      intro other member
      obtain ⟨message, listed, rfl⟩ := List.mem_map.1 member
      constructor
      · rw [message.length_payload]
        exact (good message listed).2
      · rw [message.length_payload]
        exact within message listed
    have received := Inbox.run_frames _ admitted
    rw [List.length_map] at received
    rw [List.nil_append] at content
    refine ⟨_, carried, content, ?_⟩
    rw [content]
    exact received

/-- A handshake with an extension, the choice of a mechanism, and an empty response. -/
def sentSample : List ClientMessage :=
  [.handshake ⟨1, 0⟩ [⟨"user", "u"⟩] [⟨"x", [⟨"k", ""⟩]⟩], .saslInitialResponse "S" [7],
    .saslResponse []]

theorem sent_and_received_sample :
    ∃ sent, sentSample.forM send #[] = .ok () sent ∧ ∃ frames,
      List.Forall₂ Carried sentSample frames ∧ sent.toList = frames.flatMap Frame.bytes ∧
        (Inbox.empty 64).run (.extend sent.toList :: List.replicate 4 .next) =
          (frames.map (fun frame => .ok (some frame)) ++ [.ok none], Inbox.empty 64) := by
  have done : sentSample.forM send #[] = .ok () #[
      0x56, 0, 0, 0, 41, 0, 1, 0, 0, 0, 1, 0, 0, 0, 4, 117, 115, 101, 114, 0, 0, 0, 1, 117,
      0, 1, 0, 0, 0, 1, 120, 0, 1, 0, 0, 0, 1, 107, 0, 0, 0, 0,
      0x70, 0, 0, 0, 14, 0, 0, 0, 1, 83, 0, 0, 0, 1, 7,
      0x72, 0, 0, 0, 8, 0, 0, 0, 0] := rfl
  exact ⟨_, done, sent_and_received.2 _ _ 64 done (by decide)⟩

end ClientMessage
end SchemaWire
