import SchemaWire.Cache
import SchemaWire.Message.Server
import SchemaWire.SaslSession
import SchemaWire.Settings

/-!
# Connections

The start of a connection as a state machine: the handshake, authentication, the description of
the session, and then parameters that change.  The machine moves no bytes itself; it is given one
message after the other, and says what to do next.
-/

namespace SchemaWire

/-- A connection as the client sees it. -/
structure Connection where
  /-- How far the connection has come. -/
  phase : ConnectionPhase
  /-- What the client has been told. -/
  settings : Settings
  /-- The random bytes from which the client's nonce is made. -/
  random : List UInt8
  /-- The codecs that have been resolved. -/
  cache : Cache
  /-- The authentication exchange. -/
  sasl : SaslSession
  /-- The client's side of the exchange, while it is under way. -/
  scram : Option Scram.Client
  /-- The version in effect. -/
  version : Version
  /-- The server's key. -/
  keyData : Option (List UInt8)
  /-- The server's parameters. -/
  parameters : List (String × List UInt8)
  /-- Where the session stands with regard to transactions. -/
  transaction : TransactionState
  /-- The codec of the session state, if it was described and is supported. -/
  stateCodec : Option Codec
  /-- What the client has written and not yet cleared away. -/
  outbox : Outbox
  deriving Repr

/-- What a client does next. -/
inductive Action where
  /-- Send a frame, and await a message. -/
  | write (bytes : List UInt8)
  /-- Await a message. -/
  | read
  /-- Show a notice, and await a message. -/
  | log (message : LogMessage)
  /-- Take note of the new value of a parameter, and await a message. -/
  | parameterChanged (message : ParameterStatus)
  /-- The connection is ready for commands. -/
  | finished
  deriving DecidableEq, Repr

/-- A computation that takes a connection further. -/
abbrev Steps (α : Type) := EStateM Fault Connection α

namespace Connection

/-- A connection on which nothing has been sent. -/
def new (settings : Settings) (random : List UInt8) (cache : Cache) : Connection where
  phase := .initial
  settings := settings
  random := random
  cache := cache
  sasl := .new
  scram := none
  version := settings.version
  keyData := none
  parameters := []
  transaction := .notInTransaction
  stateCodec := none
  outbox := #[]

/-- The connection with nothing left to be sent. -/
def clear (connection : Connection) : Connection :=
  { connection with outbox := #[] }

/-- Give the connection up, and with it an exchange that has begun. -/
def fail (connection : Connection) : Connection :=
  { connection with
    phase := .failed
    sasl := if connection.sasl.phase = .notStarted then connection.sasl else connection.sasl.fail }

/-- Fail or succeed without a change. -/
def ofExcept {α : Type} : Except Fault α → Steps α
  | .ok value => pure value
  | .error fault => throw fault

/-- Fail or succeed in the exchange without a change. -/
def ofScram {α : Type} : Except ScramFault α → Steps α
  | .ok value => pure value
  | .error fault => throw (.auth (.scram fault))

/-- Let the client of the exchange do its part. -/
def inScram {α : Type} (client : Scram.Client) (answers : Scram.Answers α) : Steps α :=
  fun connection =>
    match answers client with
    | .ok value client => .ok value { connection with scram := some client }
    | .error fault client => .error (.auth (.scram fault)) { connection with scram := some client }

/-- Take part in the authentication exchange. -/
def inSasl {α : Type} (exchange : Exchanges α) : Steps α := fun connection =>
  match exchange connection.sasl with
  | .ok value sasl => .ok value { connection with sasl }
  | .error fault sasl => .error fault { connection with sasl }

/-- Take part in the authentication exchange by a message that is sent. -/
def transmit {α : Type} (transmits : SaslSession.Transmits α) : Steps α := fun connection =>
  match transmits ⟨connection.sasl, connection.outbox⟩ with
  | .ok value ⟨sasl, outbox⟩ => .ok value { connection with sasl, outbox }
  | .error fault ⟨sasl, outbox⟩ => .error fault { connection with sasl, outbox }

/-- Write a message. -/
def send (message : ClientMessage) : Steps Unit := fun connection =>
  match message.send connection.outbox with
  | .ok () outbox => .ok () { connection with outbox }
  | .error fault outbox => .error fault { connection with outbox }

/-- Use the cache. -/
def inCache {α : Type} (use : Caches α) : Steps α := fun connection =>
  match use connection.cache with
  | .ok value cache => .ok value { connection with cache }
  | .error fault cache => .error fault { connection with cache }

/-- Enter a phase. -/
def enter (phase : ConnectionPhase) : Steps Unit :=
  modify fun connection => { connection with phase }

/-- Give the connection up if a computation fails. -/
def failing {α : Type} (steps : Steps α) : Steps α := fun connection =>
  match steps connection with
  | .ok value connection => .ok value connection
  | .error fault connection => .error fault connection.fail

/-- The handshake that opens a connection. -/
def handshake (settings : Settings) : ClientMessage :=
  .handshake settings.version settings.parameters []

/-- Open the connection. -/
def start : Steps Action := do
  let connection ← get
  if connection.phase = .initial then
    modify clear
    send (handshake connection.settings)
    enter .waitingAuth
    pure (.write (← get).outbox.toList)
  else
    throw (.protocol (.startedBefore connection.phase))

/-- Agree to the version of the server, if it is near enough to the one asked for. -/
def agree (message : ServerHandshake) : Steps Unit := do
  let connection ← get
  if message.version.major = connection.settings.version.major then
    set { connection with version := message.version }
  else
    throw (.version message.version)

/-- Begin an authentication exchange by one of the mechanisms that the server offers. -/
def beginSasl (offered : List String) : Steps Unit := do
  let connection ← get
  if Scram.mechanism ∈ offered then
    match connection.settings.password with
    | none => throw (.auth .passwordMissing)
    | some password =>
        let client := Scram.Client.ofRandom connection.settings.user password connection.random
        transmit (SaslSession.start Scram.mechanism (Utf8.encode client.first))
        modify fun connection =>
          { connection with scram := some client, phase := .saslInProgress }
  else
    throw (.auth (.mechanisms offered))

/-- Report an authentication message that belongs to no exchange. -/
def stray (message : Authentication) : Steps Unit := do
  let _ ← inSasl (SaslSession.receive message)
  throw (.protocol (.strayAuthentication message.kind))

/-- Do what the server has decided about authentication. -/
def stepDecision : Authentication → Steps Unit
  | .ok => enter .waitingReady
  | .mechanisms offered => beginSasl offered
  | message => stray message

/-- Take in a message before the server has decided how to authenticate. -/
def stepWaitingAuth (frame : Frame) : Steps Unit := do
  modify clear
  if frame.opcode = ServerHandshake.format.opcode then
    let message ← ofExcept (frame.readAs ServerHandshake.format)
    agree message
  else
    let message ← ofExcept (frame.readAs Authentication.format)
    stepDecision message

/-- Do what a message of the exchange asks for. -/
def stepExchange (client : Scram.Client) : SaslEvent → Steps Unit
  | .challenge bytes => do
      let answer ← inScram client (Scram.Client.answer bytes)
      transmit (SaslSession.respond (Utf8.encode answer))
  | .final bytes => ofScram (client.verify bytes)
  | .authenticated =>
      modify fun connection => { connection with scram := none, phase := .waitingReady }

/-- Take in a message while an exchange is under way. -/
def stepSaslInProgress (frame : Frame) : Steps Unit := do
  modify clear
  if frame.opcode = Authentication.format.opcode then
    let message ← ofExcept (frame.readAs Authentication.format)
    match (← get).scram with
    | none => throw (.protocol .clientMissing)
    | some client =>
        let event ← inSasl (SaslSession.receive message)
        stepExchange client event
  else
    throw (.protocol (.notAuthentication frame.opcode))

/-- Whether a fault says that a shape of type is not supported. -/
def isUnsupportedShape : Fault → Bool
  | .unsupportedShape _ _ => true
  | _ => false

/-- Take note of the type of the session state.  A type that is not supported leaves the state
without codec. -/
def describeState (message : StateDataDescription) : Steps Unit := fun connection =>
  if message.stream.isEmpty then
    .ok () { connection with cache := connection.cache.enter message.type, stateCodec := none }
  else
    match inCache (Cache.resolve message.stream message.type) connection with
    | .ok codec connection => .ok () { connection with stateCodec := some codec }
    | .error fault connection =>
        if isUnsupportedShape fault then
          .ok () { connection with stateCodec := none }
        else
          .error fault connection

/-- Take in a message while the server describes the session. -/
def stepWaitingReady (frame : Frame) : Steps Unit := do
  if frame.opcode = ServerKeyData.format.opcode then
    let message ← ofExcept (frame.readAs ServerKeyData.format)
    modify fun connection => { connection with keyData := some message.key }
  else if frame.opcode = ParameterStatus.format.opcode then
    let message ← ofExcept (frame.readAs ParameterStatus.format)
    modify fun connection =>
      { connection with parameters := connection.parameters ++ [(message.name, message.value)] }
  else if frame.opcode = StateDataDescription.format.opcode then
    let message ← ofExcept (frame.readAs StateDataDescription.format)
    describeState message
  else if frame.opcode = ReadyForCommand.format.opcode then
    let message ← ofExcept (frame.readAs ReadyForCommand.format)
    modify fun connection =>
      { connection with
        transaction := message.transactionState?.getD .notInTransaction
        phase := .ready }
  else
    throw (.protocol (.duringStartup frame.opcode))

/-- Put a value in the place of the first one under its name, or at the end if there is none. -/
def putParameter (name : String) (value : List UInt8) :
    List (String × List UInt8) → List (String × List UInt8)
  | [] => [(name, value)]
  | entry :: rest =>
      if entry.1 = name then (name, value) :: rest else entry :: putParameter name value rest

/-- The value put under a name is found there, and all others stay. -/
theorem lookup_putParameter (name other : String) (value : List UInt8)
    (parameters : List (String × List UInt8)) :
    (putParameter name value parameters).lookup other =
      if other = name then some value else parameters.lookup other := by
  induction parameters with
  | nil =>
      rw [putParameter, List.lookup_cons]
      by_cases same : other = name
      · simp [same]
      · simp [same, beq_false_of_ne same]
  | cons entry rest ih =>
      obtain ⟨key, held⟩ := entry
      rw [putParameter]
      by_cases found : key = name
      · by_cases same : other = name
        · simp [found, same]
        · simp [found, same, List.lookup_cons, beq_false_of_ne same]
      · by_cases same : other = key
        · simp [found, same]
        · simp [found, List.lookup_cons, beq_false_of_ne same, ih]

/-- Take in the new value of a parameter. -/
def stepParameter (frame : Frame) : Steps ParameterStatus := do
  let message ← ofExcept (frame.readAs ParameterStatus.format)
  modify fun connection =>
    { connection with
      parameters := putParameter message.name message.value connection.parameters }
  pure message

/-- Take in a message that is neither a notice nor an error report: the parameter that it changes,
if it changes one. -/
def stepPhase (frame : Frame) : Steps (Option ParameterStatus) := do
  let connection ← get
  match connection.phase with
  | .waitingAuth =>
      stepWaitingAuth frame
      pure none
  | .saslInProgress =>
      stepSaslInProgress frame
      pure none
  | .waitingReady =>
      stepWaitingReady frame
      pure none
  | .ready =>
      if frame.opcode = ParameterStatus.format.opcode then
        let message ← stepParameter frame
        pure (some message)
      else
        throw (.protocol (.unexpected frame.opcode connection.phase))
  | .initial | .failed => throw (.protocol (.unexpected frame.opcode connection.phase))

/-- What to do next once a message has been taken in.  A parameter that has changed is told; in an
exchange, what has been written is sent. -/
def next (connection : Connection) : Option ParameterStatus → Action
  | some message => .parameterChanged message
  | none =>
      match connection.phase with
      | .saslInProgress =>
          if connection.outbox.isEmpty then .read else .write connection.outbox.toList
      | .ready => .finished
      | .initial | .waitingAuth | .waitingReady | .failed => .read

theorem next_of_clear {connection : Connection} (silent : connection.outbox = #[])
    (unready : connection.phase ≠ .ready) : connection.next none = .read := by
  cases phase : connection.phase <;> simp_all [next]

theorem next_of_written {connection : Connection} {bytes : List UInt8}
    (phase : connection.phase = .saslInProgress) (written : connection.outbox = bytes.toArray)
    (something : bytes ≠ []) : connection.next none = .write bytes := by
  simp [next, phase, written, something]

theorem next_of_waitingReady {connection : Connection} (phase : connection.phase = .waitingReady) :
    connection.next none = .read := by
  simp only [next, phase]

theorem next_of_ready {connection : Connection} (phase : connection.phase = .ready) :
    connection.next none = .finished := by
  simp only [next, phase]

/-- Take in a message.  Notices may come at any time and change nothing; an error report ends the
connection, and so does a message that the phase has no use for. -/
def step (frame : Frame) : Steps Action := do
  if frame.opcode = LogMessage.format.opcode then
    let message ← ofExcept (frame.readAs LogMessage.format)
    pure (.log message)
  else if frame.opcode = ServerError.format.opcode then
    let report ← ofExcept (frame.readAs ServerError.format)
    failing (throw (.server report))
  else
    let changed ← failing (stepPhase frame)
    let connection ← get
    pure (connection.next changed)

end Connection
end SchemaWire
