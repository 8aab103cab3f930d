import SchemaWire.Flag
import SchemaWire.Frame
import SchemaWire.Letter
import SchemaWire.Wire.Annotated

/-!
# Server messages

The eleven types of message that a server sends, and how each is read.
-/

namespace SchemaWire

/-- The version and the extensions that a server agrees to. -/
structure ServerHandshake where
  /-- The highest version that the server speaks. -/
  version : Version
  /-- The extensions that it accepts. -/
  extensions : List Extension
  deriving DecidableEq, Repr

/-- The format of a server's handshake. -/
def ServerHandshake.format : Format ServerHandshake where
  opcode := 0x76
  read := do
    let major ← Reads.word16
    let minor ← Reads.word16
    let extensions ← Reads.array .word16 Extension.read
    pure { version := ⟨major, minor⟩, extensions }

/-- The format of authentication messages: a status, and what belongs to it. -/
def Authentication.format : Format Authentication where
  opcode := 0x52
  read := do
    let status ← Reads.word32
    if status = 0x0 then
      pure .ok
    else if status = 0xA then
      let names ← Reads.array .word32 Reads.text
      pure (.mechanisms names)
    else if status = 0xB then
      let bytes ← Reads.byteArrayOrEmpty
      pure (.challenge bytes)
    else if status = 0xC then
      let bytes ← Reads.byteArrayOrEmpty
      pure (.final bytes)
    else
      throw (.protocol (.authenticationStatus status))

/-- A key by which a client can refer to its connection. -/
structure ServerKeyData where
  /-- The thirty-two bytes of the key. -/
  key : List UInt8
  deriving DecidableEq, Repr

/-- The format of a server key. -/
def ServerKeyData.format : Format ServerKeyData where
  opcode := 0x4B
  read := do
    let key ← Reads.bytes 32
    pure { key }

/-- The value of a parameter of the server. -/
structure ParameterStatus where
  /-- The name of the parameter. -/
  name : String
  /-- The value. -/
  value : List UInt8
  deriving DecidableEq, Repr

/-- The format of a parameter status. -/
def ParameterStatus.format : Format ParameterStatus where
  opcode := 0x53
  read := do
    let name ← Reads.text
    let value ← Reads.byteArrayOrEmpty
    pure { name, value }

/-- The server awaits a command. -/
structure ReadyForCommand where
  /-- Annotations of the message. -/
  annotations : List NamedText
  /-- The letter of a transaction state. -/
  state : UInt8
  deriving DecidableEq, Repr

/-- The format of a readiness message. -/
def ReadyForCommand.format : Format ReadyForCommand where
  opcode := 0x5A
  read := do
    let annotations ← Reads.array .word16 NamedText.read
    let state ← Reads.byte
    pure { annotations, state }

/-- The state that the letter of a readiness message stands for. -/
def ReadyForCommand.transactionState? (message : ReadyForCommand) : Option TransactionState :=
  TransactionState.ofByte? message.state

/-- The format of an error report. -/
def ServerError.format : Format ServerError where
  opcode := 0x45
  read := do
    let severity ← Reads.byte
    let code ← Reads.word32
    let message ← Reads.text
    let attributes ← Reads.array .word16 Attribute.read
    pure
      { severity, code, message
        attributes := attributes.map fun item => (item.code, item.value.getD []) }

/-- A notice that changes nothing. -/
structure LogMessage where
  /-- How grave it is. -/
  severity : UInt8
  /-- Its number. -/
  code : UInt32
  /-- The notice. -/
  text : String
  /-- Annotations of the message. -/
  annotations : List NamedText
  deriving DecidableEq, Repr

/-- The format of a notice. -/
def LogMessage.format : Format LogMessage where
  opcode := 0x4C
  read := do
    let severity ← Reads.byte
    let code ← Reads.word32
    let text ← Reads.text
    let annotations ← Reads.array .word16 NamedText.read
    pure { severity, code, text, annotations }

/-- Whether a notice is a warning or graver. -/
def LogMessage.isWarning (message : LogMessage) : Bool :=
  warningSeverity ≤ message.severity

/-- A command has been carried out. -/
structure CommandComplete where
  /-- Annotations of the message. -/
  annotations : List NamedText
  /-- What the command did. -/
  capabilities : List Capability
  /-- The status of the command. -/
  status : String
  /-- The type of the session state. -/
  stateType : Uuid
  /-- The session state. -/
  state : Option (List UInt8)
  deriving DecidableEq, Repr

/-- The format of a completion message. -/
def CommandComplete.format : Format CommandComplete where
  opcode := 0x43
  read := do
    let annotations ← Reads.array .word16 NamedText.read
    let capabilities ← Capability.table.read .word64
    let status ← Reads.text
    let stateType ← Reads.uuid
    let state ← Reads.byteArray
    pure { annotations, capabilities, status, stateType, state }

/-- The types of the input and the output of a command. -/
structure CommandDataDescription where
  /-- Annotations of the message. -/
  annotations : List NamedText
  /-- What the command may do. -/
  capabilities : List Capability
  /-- How many results the command has. -/
  cardinality : Cardinality
  /-- The type of the input. -/
  inputType : Uuid
  /-- The descriptors of the input. -/
  input : List UInt8
  /-- The type of the output. -/
  outputType : Uuid
  /-- The descriptors of the output. -/
  output : List UInt8
  deriving DecidableEq, Repr

/-- The format of a description of a command. -/
def CommandDataDescription.format : Format CommandDataDescription where
  opcode := 0x54
  read := do
    let annotations ← Reads.array .word16 NamedText.read
    let capabilities ← Capability.table.read .word64
    let letter ← Reads.byte
    let cardinality ← Reads.ofExcept (Cardinality.ofByte letter)
    let inputType ← Reads.uuid
    let input ← Reads.byteArrayOrEmpty
    let outputType ← Reads.uuid
    let output ← Reads.byteArrayOrEmpty
    pure { annotations, capabilities, cardinality, inputType, input, outputType, output }

/-- The type of the session state. -/
structure StateDataDescription where
  /-- The type. -/
  type : Uuid
  /-- Its descriptors. -/
  stream : List UInt8
  deriving DecidableEq, Repr

/-- The format of a description of the session state. -/
def StateDataDescription.format : Format StateDataDescription where
  opcode := 0x73
  read := do
    let type ← Reads.uuid
    let stream ← Reads.byteArrayOrEmpty
    pure { type, stream }

/-- Results of a command. -/
structure ResultData where
  /-- The results, each as the bytes of a value. -/
  elements : List (Option (List UInt8))
  deriving DecidableEq, Repr

/-- The format of results. -/
def ResultData.format : Format ResultData where
  opcode := 0x44
  read := do
    let elements ← Reads.array .word16 Reads.byteArray
    pure { elements }

/-- A message that a server sends. -/
inductive ServerMessage where
  /-- The server agrees to a version. -/
  | handshake (message : ServerHandshake)
  /-- The server authenticates the client. -/
  | authentication (message : Authentication)
  /-- The server names a key. -/
  | keyData (message : ServerKeyData)
  /-- The server tells a parameter. -/
  | parameterStatus (message : ParameterStatus)
  /-- The server awaits a command. -/
  | readyForCommand (message : ReadyForCommand)
  /-- The server reports an error. -/
  | error (report : ServerError)
  /-- The server gives notice of something. -/
  | log (message : LogMessage)
  /-- The server has carried out a command. -/
  | commandComplete (message : CommandComplete)
  /-- The server describes a command. -/
  | commandDataDescription (message : CommandDataDescription)
  /-- The server describes the session state. -/
  | stateDataDescription (message : StateDataDescription)
  /-- The server sends results. -/
  | data (message : ResultData)
  deriving DecidableEq, Repr

namespace ServerMessage

/-- The types of message that a server sends. -/
inductive Kind where
  /-- Handshakes. -/
  | handshake
  /-- Authentication messages. -/
  | authentication
  /-- Keys. -/
  | keyData
  /-- Parameters. -/
  | parameterStatus
  /-- Readiness. -/
  | readyForCommand
  /-- Errors. -/
  | error
  /-- Notices. -/
  | log
  /-- Completed commands. -/
  | commandComplete
  /-- Descriptions of commands. -/
  | commandDataDescription
  /-- Descriptions of the session state. -/
  | stateDataDescription
  /-- Results. -/
  | data
  deriving DecidableEq, Repr

namespace Kind

/-- The format of a type of message. -/
def format : Kind → Format ServerMessage
  | .handshake => ServerHandshake.format.map .handshake
  | .authentication => Authentication.format.map .authentication
  | .keyData => ServerKeyData.format.map .keyData
  | .parameterStatus => ParameterStatus.format.map .parameterStatus
  | .readyForCommand => ReadyForCommand.format.map .readyForCommand
  | .error => ServerError.format.map .error
  | .log => LogMessage.format.map .log
  | .commandComplete => CommandComplete.format.map .commandComplete
  | .commandDataDescription => CommandDataDescription.format.map .commandDataDescription
  | .stateDataDescription => StateDataDescription.format.map .stateDataDescription
  | .data => ResultData.format.map .data

/-- All types of message. -/
def all : List Kind :=
  [.handshake, .authentication, .keyData, .parameterStatus, .readyForCommand, .error, .log,
    .commandComplete, .commandDataDescription, .stateDataDescription, .data]

/-- The type of message that a byte tells. -/
def ofOpcode? (opcode : UInt8) : Option Kind :=
  all.find? fun kind => kind.format.opcode = opcode

end Kind

/-- The type of a message. -/
def kind : ServerMessage → Kind
  | .handshake _ => .handshake
  | .authentication _ => .authentication
  | .keyData _ => .keyData
  | .parameterStatus _ => .parameterStatus
  | .readyForCommand _ => .readyForCommand
  | .error _ => .error
  | .log _ => .log
  | .commandComplete _ => .commandComplete
  | .commandDataDescription _ => .commandDataDescription
  | .stateDataDescription _ => .stateDataDescription
  | .data _ => .data

/-- The byte that tells the type of a message. -/
def opcode (message : ServerMessage) : UInt8 :=
  message.kind.format.opcode

/-- Whether a message may come at any time. -/
def isAsync : ServerMessage → Bool
  | .parameterStatus _ | .log _ => true
  | _ => false

/-- The message of a frame, by the type that the frame tells. -/
def ofFrame (frame : Frame) : Except Fault ServerMessage :=
  match Kind.ofOpcode? frame.opcode with
  | some kind => kind.format.ofPayload frame.payload
  | none => .error (.protocol (.unknownMessage frame.opcode))

theorem Kind.ofOpcode?_opcode (kind : Kind) : ofOpcode? kind.format.opcode = some kind := by
  cases kind <;> rfl

end ServerMessage
end SchemaWire
