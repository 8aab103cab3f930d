import SchemaWire.Message.Server
import SchemaWire.Proofs.Wire.Delimiting
import SchemaWire.Proofs.Wire.Shape

/-!
# Server messages are read back

A message whose lists can be counted and whose lengths can be written is read back from the bytes of
its fields.  The read of every type of message is regular, so that no payload that is a message is
one any more once it is cut or once something follows it.
-/

namespace SchemaWire

open Fallible Reads

/-! ## Lists and flags among the fields -/

namespace Field

variable {α : Type} {items : List α} {field : α → Field}

theorem bytesAll_map :
    bytesAll (items.map field) = items.flatMap fun item => (field item).bytes := by
  induction items with
  | nil => rfl
  | cons item items ih => rw [List.map_cons, bytesAll, ih, List.flatMap_cons]

theorem fitsAll_map : FitsAll (items.map field) ↔ ∀ item ∈ items, (field item).Fits := by
  induction items with
  | nil => simp [FitsAll]
  | cons item items ih => rw [List.map_cons, FitsAll, ih, List.forall_mem_cons]

end Field

theorem Reads.takes_count32 {number : Nat} (fits : number < UInt32.size) :
    Takes (count .word32) (BigEndian.ofNat 4 (UInt32.ofNat number).toNat) number := by
  have value : (UInt32.ofNat number).toNat = number := UInt32.toNat_ofNat_of_lt fits
  have taken := (takes_word32 (UInt32.ofNat number)).map fun value => (value.toNat : Int)
  rw [value] at taken ⊢
  exact takes_count (Nat.le_trans (Nat.le_of_lt fits) (by decide)) taken

theorem FlagTable.takes_read {α : Type} (table : FlagTable α) (mask : UInt64) :
    Takes (table.read .word64) (BigEndian.ofNat 8 mask.toNat) (table.ofBits mask) := by
  have bits : UInt64.ofInt (mask.toNat : Int) = mask := by
    rw [UInt64.ofInt, Int.emod_eq_of_lt (by omega) (by exact_mod_cast mask.toNat_lt),
      Int.toNat_natCast, UInt64.ofNat_toNat]
  have taken := ((takes_word64 mask).map fun value => (value.toNat : Int)).map fun value =>
    table.ofBits (UInt64.ofInt value)
  rwa [bits] at taken

/-! ## Types of message -/

namespace ServerHandshake

/-- The fields of a server's handshake. -/
def fields (message : ServerHandshake) : List Field :=
  [.word16 message.version.major, .word16 message.version.minor, .extensions message.extensions]

theorem takes_read {message : ServerHandshake} (fits : Field.FitsAll message.fields) :
    Takes format.read (Field.bytesAll message.fields) message := by
  refine (takes_word16 _).bind ?_
  refine (takes_word16 _).bind ?_
  exact (Extension.takes_list fits.2.2.1).bind (takes_pure message)

theorem regular_read : Regular format.read := by
  refine regular_word16.bind fun major => ?_
  refine regular_word16.bind fun minor => ?_
  exact (regular_array .word16 Extension.regular_read).map _

end ServerHandshake

namespace Authentication

/-- The fields of an authentication message: a status, and what belongs to it. -/
def fields : Authentication → List Field
  | .ok => [.word32 0x0]
  | .mechanisms names =>
      .word32 0xA :: .word32 (UInt32.ofNat names.length) :: names.map Field.text
  | .challenge bytes => [.word32 0xB, .byteArray (some bytes)]
  | .final bytes => [.word32 0xC, .byteArray (some bytes)]

theorem takes_read {message : Authentication} (fits : Field.FitsAll message.fields)
    (counted : ∀ names, message = .mechanisms names → names.length < UInt32.size) :
    Takes format.read (Field.bytesAll message.fields) message := by
  cases message with
  | ok => exact (takes_word32 0x0).bind (takes_pure ok)
  | mechanisms names =>
      have texts := Field.fitsAll_map.1 fits.2.2
      have listed := takes_array (takes_count32 (counted names rfl)) fun name member =>
        takes_text (texts name member)
      rw [List.map_id'] at listed
      rw [fields, Field.bytesAll, Field.bytesAll, Field.bytesAll_map]
      exact (takes_word32 0xA).bind (listed.map mechanisms)
  | challenge bytes =>
      exact (takes_word32 0xB).bind ((takes_boxed fits.2.1).bind (takes_pure (challenge bytes)))
  | final bytes =>
      exact (takes_word32 0xC).bind ((takes_boxed fits.2.1).bind (takes_pure (final bytes)))

theorem regular_read : Regular format.read := by
  refine regular_word32.bind fun status => ?_
  apply Regular.ite (regular_pure ok)
  apply Regular.ite ((regular_array .word32 regular_text).map mechanisms)
  apply Regular.ite (regular_byteArrayOrEmpty.map challenge)
  apply Regular.ite (regular_byteArrayOrEmpty.map final)
  exact regular_throw trivial

end Authentication

namespace ServerKeyData

/-- The fields of a server key. -/
def fields (message : ServerKeyData) : List Field :=
  [.raw message.key]

theorem takes_read {message : ServerKeyData} (long : message.key.length = 32) :
    Takes format.read (Field.bytesAll message.fields) message :=
  (takes_take_of_length long).bind (takes_pure message)

theorem regular_read : Regular format.read :=
  (regular_take .bytes 32).map _

end ServerKeyData

namespace ParameterStatus

/-- The fields of a parameter status. -/
def fields (message : ParameterStatus) : List Field :=
  [.text message.name, .byteArray (some message.value)]

theorem takes_read {message : ParameterStatus} (fits : Field.FitsAll message.fields) :
    Takes format.read (Field.bytesAll message.fields) message := by
  refine (takes_text fits.1).bind ?_
  exact (takes_boxed fits.2.1).bind (takes_pure message)

theorem regular_read : Regular format.read := by
  refine regular_text.bind fun name => ?_
  exact regular_byteArrayOrEmpty.map _

end ParameterStatus

namespace ReadyForCommand

/-- The fields of a readiness message. -/
def fields (message : ReadyForCommand) : List Field :=
  [.named message.annotations, .byte message.state]

theorem takes_read {message : ReadyForCommand} (fits : Field.FitsAll message.fields) :
    Takes format.read (Field.bytesAll message.fields) message := by
  refine (NamedText.takes_list fits.1).bind ?_
  exact (takes_byte _).bind (takes_pure message)

theorem regular_read : Regular format.read := by
  refine (regular_array .word16 NamedText.regular_read).bind fun annotations => ?_
  exact regular_byte.map _

end ReadyForCommand

namespace ServerError

/-- The fields of an error report. -/
def fields (report : ServerError) : List Field :=
  [.byte report.severity, .word32 report.code, .text report.message,
    .attributes (report.attributes.map fun item => ⟨item.1, some item.2⟩)]

theorem takes_read {report : ServerError} (fits : Field.FitsAll report.fields) :
    Takes format.read (Field.bytesAll report.fields) report := by
  have same (item : UInt16 × List UInt8) : (item.1, (filled? (some item.2)).getD []) = item := by
    rw [getD_filled?, Option.getD_some]
  have back : ((report.attributes.map fun item => (⟨item.1, some item.2⟩ : Attribute)).map
      Attribute.seen).map (fun item => (item.code, item.value.getD [])) = report.attributes := by
    rw [List.map_map, List.map_map]
    exact List.map_id'' same _
  have attributes := (Attribute.takes_list fits.2.2.2.1).map fun items =>
    ({ severity := report.severity, code := report.code, message := report.message
       attributes := items.map fun item => (item.code, item.value.getD []) } : ServerError)
  rw [back] at attributes
  rw [fields, Field.bytesAll, Field.bytesAll, Field.bytesAll, Field.bytesAll, Field.bytesAll,
    List.append_nil]
  refine (takes_byte _).bind ?_
  refine (takes_word32 _).bind ?_
  exact (takes_text fits.2.2.1).bind attributes

theorem regular_read : Regular format.read := by
  refine regular_byte.bind fun severity => ?_
  refine regular_word32.bind fun code => ?_
  refine regular_text.bind fun message => ?_
  exact (regular_array .word16 Attribute.regular_read).map _

end ServerError

namespace LogMessage

/-- The fields of a notice. -/
def fields (message : LogMessage) : List Field :=
  [.byte message.severity, .word32 message.code, .text message.text, .named message.annotations]

theorem takes_read {message : LogMessage} (fits : Field.FitsAll message.fields) :
    Takes format.read (Field.bytesAll message.fields) message := by
  refine (takes_byte _).bind ?_
  refine (takes_word32 _).bind ?_
  refine (takes_text fits.2.2.1).bind ?_
  exact (NamedText.takes_list fits.2.2.2.1).bind (takes_pure message)

theorem regular_read : Regular format.read := by
  refine regular_byte.bind fun severity => ?_
  refine regular_word32.bind fun code => ?_
  refine regular_text.bind fun text => ?_
  exact (regular_array .word16 NamedText.regular_read).map _

end LogMessage

namespace CommandComplete

/-- The fields of a completion message whose capabilities stand in a mask. -/
def fields (mask : UInt64) (message : CommandComplete) : List Field :=
  [.named message.annotations, .word64 mask, .text message.status, .uuid message.stateType,
    .byteArray message.state]

/-- A completion message as it is read back: it has the capabilities of the mask, and an empty state
is none. -/
def seen (mask : UInt64) (message : CommandComplete) : CommandComplete :=
  { message with
    capabilities := Capability.table.ofBits mask
    state := filled? message.state }

theorem takes_read {mask : UInt64} {message : CommandComplete}
    (fits : Field.FitsAll (message.fields mask)) :
    Takes format.read (Field.bytesAll (message.fields mask)) (message.seen mask) := by
  refine (NamedText.takes_list fits.1).bind ?_
  refine (Capability.table.takes_read mask).bind ?_
  refine (takes_text fits.2.2.1).bind ?_
  refine (takes_uuid _).bind ?_
  exact (takes_boxed? fits.2.2.2.2.1).bind (takes_pure (message.seen mask))

theorem regular_read : Regular format.read := by
  refine (regular_array .word16 NamedText.regular_read).bind fun annotations => ?_
  refine (Capability.table.regular_read .word64).bind fun capabilities => ?_
  refine regular_text.bind fun status => ?_
  refine regular_uuid.bind fun stateType => ?_
  exact regular_byteArray.map _

end CommandComplete

namespace CommandDataDescription

/-- The fields of a description of a command whose capabilities stand in a mask. -/
def fields (mask : UInt64) (message : CommandDataDescription) : List Field :=
  [.named message.annotations, .word64 mask, .byte message.cardinality.byte,
    .uuid message.inputType, .byteArray (some message.input),
    .uuid message.outputType, .byteArray (some message.output)]

/-- A description as it is read back: it has the capabilities of the mask. -/
def seen (mask : UInt64) (message : CommandDataDescription) : CommandDataDescription :=
  { message with capabilities := Capability.table.ofBits mask }

theorem takes_read {mask : UInt64} {message : CommandDataDescription}
    (fits : Field.FitsAll (message.fields mask)) :
    Takes format.read (Field.bytesAll (message.fields mask)) (message.seen mask) := by
  refine (NamedText.takes_list fits.1).bind ?_
  refine (Capability.table.takes_read mask).bind ?_
  refine (takes_byte _).bind ?_
  refine (takes_ofExcept (Cardinality.ofByte_byte _)).bind ?_
  refine (takes_uuid _).bind ?_
  refine (takes_boxed fits.2.2.2.2.1).bind ?_
  refine (takes_uuid _).bind ?_
  exact (takes_boxed fits.2.2.2.2.2.2.1).bind (takes_pure (message.seen mask))

theorem regular_read : Regular format.read := by
  refine (regular_array .word16 NamedText.regular_read).bind fun annotations => ?_
  refine (Capability.table.regular_read .word64).bind fun capabilities => ?_
  refine regular_byte.bind fun byte => ?_
  refine (regular_ofExcept (Cardinality.blamesBytes_ofByte byte)).bind fun cardinality => ?_
  refine regular_uuid.bind fun inputType => ?_
  refine regular_byteArrayOrEmpty.bind fun input => ?_
  refine regular_uuid.bind fun outputType => ?_
  exact regular_byteArrayOrEmpty.map _

end CommandDataDescription

namespace StateDataDescription

/-- The fields of a description of the session state. -/
def fields (message : StateDataDescription) : List Field :=
  [.uuid message.type, .byteArray (some message.stream)]

theorem takes_read {message : StateDataDescription} (fits : Field.FitsAll message.fields) :
    Takes format.read (Field.bytesAll message.fields) message := by
  refine (takes_uuid _).bind ?_
  exact (takes_boxed fits.2.1).bind (takes_pure message)

theorem regular_read : Regular format.read := by
  refine regular_uuid.bind fun type => ?_
  exact regular_byteArrayOrEmpty.map _

end StateDataDescription

namespace ResultData

/-- The fields of results. -/
def fields (message : ResultData) : List Field :=
  .word16 (UInt16.ofNat message.elements.length) :: message.elements.map Field.byteArray

/-- Results as they are read back: an empty one is none. -/
def seen (message : ResultData) : ResultData :=
  ⟨message.elements.map filled?⟩

theorem takes_read {message : ResultData} (fits : Field.FitsAll message.fields)
    (counted : message.elements.length ≤ 65535) :
    Takes format.read (Field.bytesAll message.fields) message.seen := by
  have each := Field.fitsAll_map.1 fits.2
  have listed := takes_array16 counted fun element member => takes_boxed? (each element member)
  rw [fields, Field.bytesAll, Field.bytesAll_map, Field.bytes, Writes.toNat_countWord counted]
  exact listed.map ResultData.mk

theorem regular_read : Regular format.read :=
  (regular_array .word16 regular_byteArray).map _

end ResultData

/-! ## All messages -/

theorem Frame.readAs_eq_ok {α : Type} {frame : Frame} {format : Format α} {message : α} :
    frame.readAs format = .ok message ↔
      frame.opcode = format.opcode ∧ format.ofPayload frame.payload = .ok message := by
  rw [readAs]
  split
  case isTrue same => simp [same]
  case isFalse other => simp [other]

theorem Format.ofPayload_map_eq_ok {α β : Type} {format : Format α} {view : α → β}
    {payload : List UInt8} {result : β} :
    (format.map view).ofPayload payload = .ok result ↔
      ∃ message, format.ofPayload payload = .ok message ∧ view message = result := by
  simp only [ofPayload, run_whole_eq_ok]
  constructor
  · rintro ⟨stop, done, nothing⟩
    obtain ⟨message, middle, opened, closed⟩ := bind_apply_eq_ok.1 done
    obtain ⟨seen, rfl⟩ := EStateM.Result.ok.inj closed
    exact ⟨message, ⟨middle, opened, nothing⟩, seen⟩
  · rintro ⟨message, ⟨stop, done, nothing⟩, rfl⟩
    exact ⟨stop, bind_apply_ok done, nothing⟩

namespace ServerMessage

variable {mask : UInt64} {message : ServerMessage} {frame : Frame}

/-- The fields of a message.  A message that tells capabilities has them in a mask. -/
def fields (mask : UInt64) : ServerMessage → List Field
  | .handshake message => message.fields
  | .authentication message => message.fields
  | .keyData message => message.fields
  | .parameterStatus message => message.fields
  | .readyForCommand message => message.fields
  | .error report => report.fields
  | .log message => message.fields
  | .commandComplete message => message.fields mask
  | .commandDataDescription message => message.fields mask
  | .stateDataDescription message => message.fields
  | .data message => message.fields

/-- The lists that are not a field of their own can be counted, and a key has its length. -/
def Counted : ServerMessage → Prop
  | .authentication (.mechanisms names) => names.length < UInt32.size
  | .keyData message => message.key.length = 32
  | .data message => message.elements.length ≤ 65535
  | _ => True

/-- The lengths and the numbers of listed items in a message can be written. -/
structure Fits (mask : UInt64) (message : ServerMessage) : Prop where
  fields : Field.FitsAll (message.fields mask)
  counted : message.Counted

/-- A message as it is read back: it has the capabilities of the mask, and an empty byte string in
the place of an optional one is none. -/
def seen (mask : UInt64) : ServerMessage → ServerMessage
  | .commandComplete message => .commandComplete (message.seen mask)
  | .commandDataDescription message => .commandDataDescription (message.seen mask)
  | .data message => .data message.seen
  | message => message

/-- Who expects a message of its type reads the message from a frame. -/
def ReadFrom (frame : Frame) : ServerMessage → Prop
  | .handshake message => frame.readAs ServerHandshake.format = .ok message
  | .authentication message => frame.readAs Authentication.format = .ok message
  | .keyData message => frame.readAs ServerKeyData.format = .ok message
  | .parameterStatus message => frame.readAs ParameterStatus.format = .ok message
  | .readyForCommand message => frame.readAs ReadyForCommand.format = .ok message
  | .error report => frame.readAs ServerError.format = .ok report
  | .log message => frame.readAs LogMessage.format = .ok message
  | .commandComplete message => frame.readAs CommandComplete.format = .ok message
  | .commandDataDescription message => frame.readAs CommandDataDescription.format = .ok message
  | .stateDataDescription message => frame.readAs StateDataDescription.format = .ok message
  | .data message => frame.readAs ResultData.format = .ok message

theorem takes_read (fits : message.Fits mask) :
    Takes message.kind.format.read (Field.bytesAll (message.fields mask)) (message.seen mask) := by
  obtain ⟨fits, counted⟩ := fits
  cases message with
  | handshake message => exact (ServerHandshake.takes_read fits).map handshake
  | authentication message =>
      refine (Authentication.takes_read fits ?_).map authentication
      rintro names rfl
      exact counted
  | keyData message => exact (ServerKeyData.takes_read counted).map keyData
  | parameterStatus message => exact (ParameterStatus.takes_read fits).map parameterStatus
  | readyForCommand message => exact (ReadyForCommand.takes_read fits).map readyForCommand
  | error report => exact (ServerError.takes_read fits).map error
  | log message => exact (LogMessage.takes_read fits).map log
  | commandComplete message => exact (CommandComplete.takes_read fits).map commandComplete
  | commandDataDescription message =>
      exact (CommandDataDescription.takes_read fits).map commandDataDescription
  | stateDataDescription message =>
      exact (StateDataDescription.takes_read fits).map stateDataDescription
  | data message => exact (ResultData.takes_read fits counted).map data

theorem Kind.regular_read (kind : Kind) : Regular kind.format.read := by
  cases kind with
  | handshake => exact ServerHandshake.regular_read.map _
  | authentication => exact Authentication.regular_read.map _
  | keyData => exact ServerKeyData.regular_read.map _
  | parameterStatus => exact ParameterStatus.regular_read.map _
  | readyForCommand => exact ReadyForCommand.regular_read.map _
  | error => exact ServerError.regular_read.map _
  | log => exact LogMessage.regular_read.map _
  | commandComplete => exact CommandComplete.regular_read.map _
  | commandDataDescription => exact CommandDataDescription.regular_read.map _
  | stateDataDescription => exact StateDataDescription.regular_read.map _
  | data => exact ResultData.regular_read.map _

theorem ofFrame_of_opcode {kind : Kind} {opcode : UInt8} (told : opcode = kind.format.opcode)
    (payload : List UInt8) : ofFrame ⟨opcode, payload⟩ = kind.format.ofPayload payload := by
  rw [ofFrame, told, Kind.ofOpcode?_opcode]

/-- A frame that is read as a message tells the type of the message. -/
theorem ofFrame_eq_ok (done : ofFrame frame = .ok message) :
    ∃ kind : Kind, frame.opcode = kind.format.opcode ∧
      kind.format.ofPayload frame.payload = .ok message := by
  rw [ofFrame] at done
  split at done
  case h_1 kind told =>
    exact ⟨kind, (of_decide_eq_true (List.find?_some told :)).symm, done⟩
  case h_2 => simp at done

theorem readFrom_of_ofPayload {kind : Kind} (told : frame.opcode = kind.format.opcode)
    (done : kind.format.ofPayload frame.payload = .ok message) : message.ReadFrom frame := by
  cases kind <;>
  · obtain ⟨inner, read, rfl⟩ := Format.ofPayload_map_eq_ok.1 done
    exact Frame.readAs_eq_ok.2 ⟨told, read⟩

/-- A message that fits is read back from what its fields are written as.  Every frame that is read
as a message is read as the same message by who expects its type, and is read as no message once its
payload is cut or once something follows it. -/
theorem payload_exact :
    (∀ (mask : UInt64) (message : ServerMessage), message.Fits mask →
      ∃ payload, (Field.writeAll (message.fields mask)).run = .ok payload ∧
        ofFrame ⟨message.opcode, payload⟩ = .ok (message.seen mask)) ∧
    ∀ (opcode : UInt8) (payload : List UInt8) (message : ServerMessage),
      ofFrame ⟨opcode, payload⟩ = .ok message →
        message.ReadFrom ⟨opcode, payload⟩ ∧
        (∀ front back, payload = front ++ back → back ≠ [] →
          ∃ cause, ofFrame ⟨opcode, front⟩ = .error (.framing cause)) ∧
        ∀ more, more ≠ [] →
          ∃ cause, ofFrame ⟨opcode, payload ++ more⟩ = .error (.framing cause) := by
  constructor
  · intro mask message fits
    have written := Writes.run_of_emits ((Field.settlesAll (message.fields mask)).emits fits.fields)
    refine ⟨_, written, ?_⟩
    rw [ofFrame_of_opcode (show message.opcode = message.kind.format.opcode from rfl)]
    exact (takes_read fits).takesAll.run_whole
  · intro opcode payload message done
    obtain ⟨kind, told, read⟩ := ofFrame_eq_ok done
    refine ⟨readFrom_of_ofPayload told read, ?_, ?_⟩
    · rintro front back rfl missing
      rw [ofFrame_of_opcode told]
      exact kind.regular_read.run_cut read missing
    · intro more something
      rw [ofFrame_of_opcode told]
      exact kind.regular_read.run_extended read something

/-- A completed command with an annotation and an empty state. -/
def completeSample : ServerMessage :=
  .commandComplete ⟨[⟨"k", ""⟩], [], "OK", ⟨0, 1⟩, some []⟩

/-- The mask has a flag that is known and one that is not; the other payload is that of a readiness
message. -/
theorem payload_exact_completeSample :
    (∃ payload, (Field.writeAll (completeSample.fields 0x21)).run = .ok payload ∧
      ofFrame ⟨0x43, payload⟩ =
        .ok (.commandComplete ⟨[⟨"k", ""⟩], [.modifications], "OK", ⟨0, 1⟩, none⟩)) ∧
    (⟨0x5A, [0, 0, 0x49]⟩ : Frame).readAs ReadyForCommand.format = .ok ⟨[], 0x49⟩ ∧
    (∃ cause, ofFrame ⟨0x5A, [0, 0]⟩ = .error (.framing cause)) ∧
    ∃ cause, ofFrame ⟨0x5A, [0, 0, 0x49, 0]⟩ = .error (.framing cause) := by
  have named : ∀ item ∈ [(⟨"k", ""⟩ : NamedText)], item.Fits := by
    rintro _ (_ | ⟨_, ⟨⟩⟩)
    exact ⟨by decide, by decide⟩
  have status : (Utf8.encode "OK").length ≤ Misfit.lengthMax := by decide
  have fits : completeSample.Fits 0x21 :=
    ⟨⟨⟨by decide, named⟩, trivial, status, trivial, Nat.zero_le _, trivial⟩, trivial⟩
  have read : ofFrame ⟨0x5A, [0, 0, 0x49]⟩ = .ok (.readyForCommand ⟨[], 0x49⟩) := rfl
  obtain ⟨same, cut, extended⟩ := payload_exact.2 0x5A [0, 0, 0x49] _ read
  have written := payload_exact.1 0x21 completeSample fits
  refine ⟨written, same, ?_, ?_⟩
  · exact cut [0, 0] [0x49] rfl (by simp)
  · exact extended [0] (by simp)

end ServerMessage
end SchemaWire
