import SchemaWire.Frame
import SchemaWire.Wire.Field

/-!
# Client messages

The messages that a client sends, as the fields of their payloads.
-/

namespace SchemaWire

/-- A message that a client sends. -/
inductive ClientMessage where
  /-- The first message: the version asked for, parameters of the connection, and extensions. -/
  | handshake (version : Version) (parameters : List NamedText) (extensions : List Extension)
  /-- The choice of an authentication mechanism, and its first message. -/
  | saslInitialResponse (mechanism : String) (bytes : List UInt8)
  /-- The answer to a challenge. -/
  | saslResponse (bytes : List UInt8)
  /-- End an implicit transaction, and ask for readiness. -/
  | sync
  /-- Ask for all pending output. -/
  | flush
  /-- Close the connection. -/
  | terminate
  /-- The end of the data of a restoration. -/
  | restoreEnd
  deriving DecidableEq, Repr

namespace ClientMessage

/-- The byte that tells the type of a message. -/
def opcode : ClientMessage → UInt8
  | .handshake _ _ _ => 0x56
  | .saslInitialResponse _ _ => 0x70
  | .saslResponse _ => 0x72
  | .sync => 0x53
  | .flush => 0x48
  | .terminate => 0x58
  | .restoreEnd => 0x2E

/-- The fields of the payload. -/
def fields : ClientMessage → List Field
  | .handshake version parameters extensions =>
      [.word16 version.major, .word16 version.minor, .named parameters, .extensions extensions]
  | .saslInitialResponse mechanism bytes => [.text mechanism, .byteArray (some bytes)]
  | .saslResponse bytes => [.byteArray (some bytes)]
  | .sync | .flush | .terminate | .restoreEnd => []

/-- The size that a message declares for its payload. -/
def size (message : ClientMessage) : Nat :=
  Field.sizeAll message.fields

/-- Add the frame of a message to what waits to be sent. -/
def send (message : ClientMessage) : Sends Unit :=
  Frame.send message.opcode message.size (Field.writeAll message.fields)

/-- The bytes of the frame of a message. -/
def bytes (message : ClientMessage) : Except Fault (List UInt8) :=
  match message.send #[] with
  | .ok () outbox => .ok outbox.toList
  | .error fault _ => .error fault

end ClientMessage
end SchemaWire
