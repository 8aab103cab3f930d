import SchemaWire.Authentication
import SchemaWire.Fault.Framing
import SchemaWire.Fault.Schema
import SchemaWire.Phase
import SchemaWire.Scram
import SchemaWire.ServerError
import SchemaWire.Version

/-!
# Faults

Everything that can go wrong, by cause.  A fault knows its text and whether the connection on
which it arose is of further use.
-/

namespace SchemaWire

/-- Why an authentication message comes out of order. -/
inductive SequenceFault where
  /-- The exchange has begun before. -/
  | startedBefore
  /-- There is no challenge to respond to. -/
  | unchallenged
  /-- The server confirms an exchange without having proved itself. -/
  | unproved
  /-- The server sends what does not belong there. -/
  | unexpected (kind : Authentication.Kind)
  deriving DecidableEq, Repr

/-- A fault of order in words. -/
def SequenceFault.message : SequenceFault → String
  | .startedBefore => "initial response already sent"
  | .unchallenged => "response without a pending challenge"
  | .unproved => "success before the server final message"
  | .unexpected kind => s!"unexpected {kind.name}"

/-- Why a message breaks the protocol. -/
inductive ProtocolFault where
  /-- No server message has the type. -/
  | unknownMessage (opcode : UInt8)
  /-- A message of one type was expected, and another came. -/
  | otherMessage (expected got : UInt8)
  /-- No authentication message has the status. -/
  | authenticationStatus (status : UInt32)
  /-- No cardinality has the letter. -/
  | cardinality (byte : UInt8)
  /-- The connection has been started before. -/
  | startedBefore (phase : ConnectionPhase)
  /-- The message does not belong to the phase of the connection. -/
  | unexpected (opcode : UInt8) (phase : ConnectionPhase)
  /-- An authentication exchange is under way, and the message does not belong to it. -/
  | notAuthentication (opcode : UInt8)
  /-- An exchange is under way without a client that could answer. -/
  | clientMissing
  /-- An authentication message comes where none belongs. -/
  | strayAuthentication (kind : Authentication.Kind)
  /-- The message does not belong to the description of a session. -/
  | duringStartup (opcode : UInt8)
  deriving DecidableEq, Repr

/-- A breach of the protocol in words. -/
def ProtocolFault.message : ProtocolFault → String
  | .unknownMessage opcode =>
      s!"unknown server message type '{opcodeText opcode}' (0x" ++ Hex.padded 2 opcode.toNat ++ ")"
  | .otherMessage expected got =>
      s!"expected message '{opcodeText expected}', got '{opcodeText got}'"
  | .authenticationStatus status => s!"Unknown authentication status: {status.toNat}"
  | .cardinality byte => "unknown cardinality byte 0x" ++ Hex.padded 2 byte.toNat
  | .startedBefore phase => s!"start called in state {phase.name}"
  | .unexpected opcode phase =>
      s!"Unexpected message '{opcodeText opcode}' in state {phase.name}"
  | .notAuthentication opcode => s!"Expected Authentication message, got '{opcodeText opcode}'"
  | .clientMissing => "SCRAM client not initialized"
  | .strayAuthentication kind => s!"Unexpected {kind.name}"
  | .duringStartup opcode => s!"Unexpected message during startup: '{opcodeText opcode}'"

/-- Why a client and a server cannot authenticate each other. -/
inductive AuthFault where
  /-- The exchange of proofs failed. -/
  | scram (fault : ScramFault)
  /-- The server offers no mechanism that the client knows. -/
  | mechanisms (offered : List String)
  /-- The client has no password. -/
  | passwordMissing
  deriving DecidableEq, Repr

/-- A fault of authentication in words. -/
def AuthFault.message : AuthFault → String
  | .scram fault => fault.message
  | .mechanisms offered =>
      s!"No supported SASL mechanism. Server offers: {Quoted.names offered}"
  | .passwordMissing => "Password required but not provided"

/-- What went wrong. -/
inductive Fault where
  /-- The server reports an error. -/
  | server (error : ServerError)
  /-- Lengths and bytes do not agree. -/
  | framing (cause : FramingFault)
  /-- A shape of type is not supported. -/
  | unsupportedShape (type : Uuid) (cause : ShapeFault)
  /-- A number of elements, or a member, is not what a type declares. -/
  | cardinality (type : Uuid) (cause : CardinalityFault)
  /-- An authentication message came out of order. -/
  | sequence (phase : SaslPhase) (cause : SequenceFault)
  /-- A descriptor describes no codec. -/
  | resolution (type : Uuid) (cause : ResolutionFault)
  /-- Bytes are no value of a type. -/
  | decode (cause : DecodeFault)
  /-- A value cannot be written. -/
  | encode (cause : EncodeFault)
  /-- A message breaks the protocol. -/
  | protocol (cause : ProtocolFault)
  /-- Client and server cannot authenticate each other. -/
  | auth (cause : AuthFault)
  /-- The server speaks a version of the protocol that the client does not. -/
  | version (offered : Version)
  deriving DecidableEq, Repr

namespace Fault

/-- A fault in words. -/
def message : Fault → String
  | .server error => s!"EdgeDB error: {error.text}"
  | .framing cause => s!"Framing error: {cause.message}"
  | .unsupportedShape type cause => s!"Unsupported shape for type {type.text}: {cause.message}"
  | .cardinality type cause => s!"Cardinality error for type {type.text}: {cause.message}"
  | .sequence phase cause =>
      s!"Unexpected authentication message in state {phase.name}: {cause.message}"
  | .resolution type cause => s!"Cannot resolve type descriptor {type.text}: {cause.message}"
  | .decode cause => s!"Decode error: {cause.message}"
  | .encode cause => s!"Encode error: {cause.message}"
  | .protocol cause => s!"Protocol error: {cause.message}"
  | .auth cause => s!"Authentication failed: {cause.message}"
  | .version offered => s!"Unsupported: protocol version {offered.text}"

/-- Whether the connection on which a fault arose is of no further use. -/
def breaksConnection : Fault → Bool
  | .framing _ | .sequence _ _ | .protocol _ => true
  | .server error => error.isFatal
  | _ => false

/-- The number of an error that the server reports. -/
def serverCode? : Fault → Option UInt32
  | .server error => some error.code
  | _ => none

end Fault
end SchemaWire
