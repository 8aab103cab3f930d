/-!
# Authentication messages

What a server says while it authenticates a client.
-/

namespace SchemaWire

/-- An authentication message. -/
inductive Authentication where
  /-- The client is who it says it is. -/
  | ok
  /-- The client has to authenticate by one of some mechanisms. -/
  | mechanisms (names : List String)
  /-- A challenge to answer. -/
  | challenge (bytes : List UInt8)
  /-- What the server has to show for its part. -/
  | final (bytes : List UInt8)
  deriving DecidableEq, Repr

namespace Authentication

/-- What sort of message it is, without its content. -/
inductive Kind where
  /-- Success. -/
  | ok
  /-- A choice of mechanisms. -/
  | mechanisms
  /-- A challenge. -/
  | challenge
  /-- Final data. -/
  | final
  deriving DecidableEq, Repr

/-- The name of a sort of message. -/
def Kind.name : Kind → String
  | .ok => "AuthenticationOK"
  | .mechanisms => "AuthenticationSASL"
  | .challenge => "AuthenticationSASLContinue"
  | .final => "AuthenticationSASLFinal"

/-- The sort of a message. -/
def kind : Authentication → Kind
  | .ok => .ok
  | .mechanisms _ => .mechanisms
  | .challenge _ => .challenge
  | .final _ => .final

end Authentication
end SchemaWire
