import SchemaWire.Message.Client

/-!
# Authentication sessions

The order of the messages of an authentication exchange.  What the messages say is left to the
mechanism; a message out of order fails the session for good.
-/

namespace SchemaWire

/-- An authentication exchange. -/
structure SaslSession where
  /-- How far the exchange has come. -/
  phase : SaslPhase
  /-- The mechanism chosen. -/
  mechanism : Option String
  /-- The number of messages sent and received. -/
  exchanges : Nat
  /-- Whether the server's final data has come. -/
  finalReceived : Bool
  deriving DecidableEq, Repr

/-- A computation that takes part in an exchange. -/
abbrev Exchanges (α : Type) := EStateM Fault SaslSession α

/-- What a message of the server asks of the client. -/
inductive SaslEvent where
  /-- A challenge to answer. -/
  | challenge (bytes : List UInt8)
  /-- Final data to verify. -/
  | final (bytes : List UInt8)
  /-- The exchange is over. -/
  | authenticated
  deriving DecidableEq, Repr

namespace SaslSession

/-- A session in which nothing has been sent. -/
def new : SaslSession := ⟨.notStarted, none, 0, false⟩

/-- Count a message, and go on to a phase. -/
def advance (session : SaslSession) (phase : SaslPhase) : SaslSession :=
  { session with phase, exchanges := session.exchanges + 1 }

/-- Give the session up. -/
def fail (session : SaslSession) : SaslSession :=
  { session with phase := .failed }

/-- Give the session up because of a message out of order. -/
def refuse {α : Type} (cause : SequenceFault) : Exchanges α := fun session =>
  .error (.sequence session.phase cause) session.fail

/-- A session, and what waits to be sent. -/
structure Channel where
  /-- The session. -/
  session : SaslSession
  /-- The bytes that wait. -/
  outbox : Outbox
  deriving DecidableEq, Repr

/-- A computation that takes part in an exchange and sends. -/
abbrev Transmits (α : Type) := EStateM Fault Channel α

/-- Send a message that one phase of the session has a use for, and take note of it. -/
def transmit (due : SaslPhase) (cause : SequenceFault) (message : ClientMessage)
    (note : SaslSession → SaslSession) : Transmits Unit := fun channel =>
  if channel.session.phase = due then
    match message.send channel.outbox with
    | .ok () outbox => .ok () ⟨note channel.session, outbox⟩
    | .error fault outbox => .error fault ⟨channel.session, outbox⟩
  else
    .error (.sequence channel.session.phase cause) ⟨channel.session.fail, channel.outbox⟩

/-- Choose a mechanism, which opens the exchange. -/
def start (mechanism : String) (bytes : List UInt8) : Transmits Unit :=
  transmit .notStarted .startedBefore (.saslInitialResponse mechanism bytes)
    fun session => { session.advance .initialResponseSent with mechanism := some mechanism }

/-- Answer a challenge. -/
def respond (bytes : List UInt8) : Transmits Unit :=
  transmit .challengeReceived .unchallenged (.saslResponse bytes)
    fun session => session.advance .finalResponseSent

/-- Take in a message of the server. -/
def receive (message : Authentication) : Exchanges SaslEvent := fun session =>
  match session.phase, message with
  | .initialResponseSent, .challenge bytes =>
      .ok (.challenge bytes) (session.advance .challengeReceived)
  | .finalResponseSent, .final bytes =>
      if session.finalReceived then
        refuse (.unexpected .final) session
      else
        .ok (.final bytes) { session.advance .finalResponseSent with finalReceived := true }
  | .finalResponseSent, .ok =>
      if session.finalReceived then
        .ok .authenticated (session.advance .authenticated)
      else
        refuse .unproved session
  | _, message => refuse (.unexpected message.kind) session

end SaslSession
end SchemaWire
