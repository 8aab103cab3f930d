import SchemaWire.Proofs.Connection.Step
import SchemaWire.Proofs.Resolution.Blame
import SchemaWire.Proofs.Scram

/-!
# Where a connection stops

A connection that does not accept a message may have gone half the way: the exchange has moved on,
or an answer has been made that cannot be sent.  What has changed by then, and what is said about
it, is read off the machine once.  Two faults are kept apart from all others: they say that the
parts of the connection do not fit each other.
-/

namespace SchemaWire

open Fallible Reads

/-- What went wrong is that the parts of a connection do not fit each other. -/
def Fault.IsInternal : Fault → Prop
  | .protocol .clientMissing | .protocol (.strayAuthentication _) => True
  | _ => False

theorem Fault.LiesInBytes.external {fault : Fault} (lies : fault.LiesInBytes) :
    ¬ fault.IsInternal := by
  intro internal
  cases fault with
  | protocol cause => cases cause <;> simp_all [LiesInBytes, IsInternal]
  | _ => exact internal

namespace Connection

variable {before after : Connection} {frame : Frame} {fault : Fault}

/-- The phases in which a connection may have something to say. -/
def Speaking (connection : Connection) : Prop :=
  connection.phase = .waitingAuth ∨ connection.phase = .saslInProgress

/-- What a connection that does not accept a message has done with it by then, and why it stops.
What was left to be sent has been cleared away in the phases in which there may be more to say. -/
inductive Stops (before : Connection) : Fault → Connection → Prop where
  | refused {fault : Fault} (external : ¬ fault.IsInternal) : Stops before fault before
  | unheard {fault : Fault} (speaking : before.Speaking) (external : ¬ fault.IsInternal) :
      Stops before fault before.clear
  | clientless (phase : before.phase = .saslInProgress) (missing : before.scram = none) :
      Stops before (.protocol .clientMissing) before.clear
  | stray {message : Authentication} {event : SaslEvent} {sasl : SaslSession}
      (phase : before.phase = .waitingAuth) (received : before.sasl.Receives message event sasl) :
      Stops before (.protocol (.strayAuthentication message.kind)) { before.clear with sasl }
  | disordered {fault : Fault} {sasl : SaslSession} (speaking : before.Speaking)
      (fails : before.sasl.Fails fault sasl) : Stops before fault { before.clear with sasl }
  | unverified {message : Authentication} {event : SaslEvent} {sasl : SaslSession}
      {cause : ScramFault} (phase : before.phase = .saslInProgress)
      (received : before.sasl.Receives message event sasl) :
      Stops before (.auth (.scram cause)) { before.clear with sasl }
  | unsent {message : Authentication} {event : SaslEvent} {middle sasl : SaslSession}
      {next : Scram.Client} {fault : Fault} (phase : before.phase = .saslInProgress)
      (received : before.sasl.Receives message event middle) (fails : middle.Fails fault sasl) :
      Stops before fault { before.clear with sasl, scram := some next }
  | undescribed {fault : Fault} {cache : Cache} (phase : before.phase = .waitingReady)
      (lies : fault.LiesInBytes) : Stops before fault { before with cache }

/-! ## Parts of a step that fail -/

theorem ofExcept_eq_error {α : Type} {result : Except Fault α} :
    ofExcept result before = .error fault after ↔ result = .error fault ∧ before = after := by
  cases result <;> simp [ofExcept]

theorem ofScram_eq_error {α : Type} {result : Except ScramFault α} :
    ofScram result before = .error fault after ↔
      (∃ cause, result = .error cause ∧ .auth (.scram cause) = fault) ∧ before = after := by
  cases result <;> simp [ofScram]

theorem inScram_eq_error {α : Type} {client : Scram.Client} {answers : Scram.Answers α} :
    inScram client answers before = .error fault after ↔
      ∃ cause left, answers client = .error cause left ∧ .auth (.scram cause) = fault ∧
        { before with scram := some left } = after := by
  rw [inScram]
  cases answers client with
  | ok held next => simp
  | error cause left => simp [and_assoc]

theorem inSasl_eq_error {α : Type} {exchange : Exchanges α} :
    inSasl exchange before = .error fault after ↔
      ∃ sasl, exchange before.sasl = .error fault sasl ∧ { before with sasl } = after := by
  rw [inSasl]
  cases exchange before.sasl with
  | ok held sasl => simp
  | error cause sasl => simp [and_assoc]

theorem transmit_eq_error {α : Type} {transmits : SaslSession.Transmits α} :
    transmit transmits before = .error fault after ↔
      ∃ channel, transmits ⟨before.sasl, before.outbox⟩ = .error fault channel ∧
        { before with sasl := channel.session, outbox := channel.outbox } = after := by
  rw [transmit]
  cases transmits ⟨before.sasl, before.outbox⟩ with
  | ok held channel => simp
  | error cause channel => simp [and_assoc]

theorem inSasl_bind {α β : Type} (exchange : Exchanges α) (next : α → Steps β)
    (connection : Connection) :
    (inSasl exchange >>= next) connection =
      match exchange connection.sasl with
      | .ok value sasl => next value { connection with sasl }
      | .error fault sasl => .error fault { connection with sasl } := by
  cases taken : exchange connection.sasl with
  | ok value sasl => exact bind_apply_ok (inSasl_eq_ok.2 ⟨sasl, taken, rfl⟩)
  | error fault sasl => exact bind_apply_error (inSasl_eq_error.2 ⟨sasl, taken, rfl⟩)

theorem transmit_bind {α β : Type} (transmits : SaslSession.Transmits α) (next : α → Steps β)
    (connection : Connection) :
    (transmit transmits >>= next) connection =
      match transmits ⟨connection.sasl, connection.outbox⟩ with
      | .ok value ⟨sasl, outbox⟩ => next value { connection with sasl, outbox }
      | .error fault ⟨sasl, outbox⟩ => .error fault { connection with sasl, outbox } := by
  cases sent : transmits ⟨connection.sasl, connection.outbox⟩ with
  | ok value channel => exact bind_apply_ok (transmit_eq_ok.2 ⟨channel, sent, rfl⟩)
  | error fault channel => exact bind_apply_error (transmit_eq_error.2 ⟨channel, sent, rfl⟩)

/-- A message of the exchange that is not sent leaves the outbox as it was. -/
theorem fails_of_transmit {due : SaslPhase} {cause : SequenceFault} {message : ClientMessage}
    {note : SaslSession → SaslSession}
    (failed : transmit (SaslSession.transmit due cause message note) before = .error fault after) :
    ∃ sasl, before.sasl.Fails fault sasl ∧ { before with sasl } = after := by
  rw [transmit] at failed
  split at failed
  case h_1 => simp at failed
  case h_2 flaw sasl outbox unsent =>
    obtain ⟨fails, rfl⟩ := SaslSession.fails_of_transmit unsent
    obtain ⟨rfl, rfl⟩ := EStateM.Result.error.inj failed
    exact ⟨sasl, fails, rfl⟩

theorem failing_eq_error {α : Type} {steps : Steps α} :
    failing steps before = .error fault after ↔
      ∃ middle, steps before = .error fault middle ∧ middle.fail = after := by
  rw [failing]
  cases steps before with
  | ok value middle => simp
  | error cause middle => simp [and_assoc]

theorem external_of_readAs {α : Type} {format : Format α} (regular : Regular format.read)
    (failed : frame.readAs format = .error fault) : ¬ fault.IsInternal := by
  rw [Frame.readAs] at failed
  split at failed
  case isTrue => exact (regular.blamesBytes_run frame.payload failed).external
  case isFalse =>
    obtain rfl := Except.error.inj failed
    exact id

/-- A connection takes in a message as it was, or with nothing left to be sent. -/
def Hears (before taken : Connection) : Prop :=
  taken = before ∨ before.Speaking ∧ taken = before.clear

section

variable {taken : Connection} (hears : Hears before taken)

include hears

theorem Hears.stops (external : ¬ fault.IsInternal) : Stops before fault taken := by
  rcases hears with rfl | ⟨speaking, rfl⟩
  · exact .refused external
  · exact .unheard speaking external

theorem Hears.stops_of_throw {α : Type} {cause : Fault} (external : ¬ cause.IsInternal)
    (failed : (throw cause : Steps α) taken = .error fault after) : Stops before fault after := by
  obtain ⟨rfl, rfl⟩ := EStateM.Result.error.inj failed
  exact hears.stops external

/-- A step that begins by reading the frame is refused there, or stops in what follows. -/
theorem Hears.stops_of_read {α β : Type} {format : Format α} {next : α → Steps β}
    (regular : Regular format.read)
    (failed : (do let message ← ofExcept (frame.readAs format); next message : Steps β) taken =
      .error fault after)
    (later : ∀ message, frame.readAs format = .ok message →
      next message taken = .error fault after → Stops before fault after) :
    Stops before fault after := by
  rcases bind_apply_eq_error.1 failed with unread | ⟨message, middle, held, stopped⟩
  · obtain ⟨malformed, rfl⟩ := ofExcept_eq_error.1 unread
    exact hears.stops (external_of_readAs regular malformed)
  · obtain ⟨read, rfl⟩ := ofExcept_eq_ok.1 held
    exact later message read stopped

end

/-! ## Steps that fail -/

theorem stops_of_beginSasl {offered : List String} (phase : before.phase = .waitingAuth)
    (failed : beginSasl offered before.clear = .error fault after) : Stops before fault after := by
  have speaking : before.Speaking := .inl phase
  have hears : Hears before before.clear := .inr ⟨speaking, rfl⟩
  rw [beginSasl, bind_apply_ok (get_apply _)] at failed
  split at failed
  case isFalse => exact hears.stops_of_throw id failed
  case isTrue =>
    cases secret : before.clear.settings.password with
    | none =>
        simp only [secret] at failed
        exact hears.stops_of_throw id failed
    | some password =>
        simp only [secret] at failed
        rcases bind_apply_eq_error.1 failed with unsent | ⟨_, middle, -, begun⟩
        · obtain ⟨sasl, fails, rfl⟩ := fails_of_transmit unsent
          exact .disordered speaking fails
        · simp at begun

theorem stops_of_stray {message : Authentication} (phase : before.phase = .waitingAuth)
    (failed : stray message before.clear = .error fault after) : Stops before fault after := by
  rcases bind_apply_eq_error.1 failed with refused | ⟨event, middle, taken, thrown⟩
  · obtain ⟨sasl, unexpected, rfl⟩ := inSasl_eq_error.1 refused
    exact .disordered (.inl phase) (SaslSession.fails_of_receive unexpected)
  · obtain ⟨sasl, received, rfl⟩ := inSasl_eq_ok.1 taken
    obtain ⟨rfl, rfl⟩ := EStateM.Result.error.inj thrown
    exact .stray phase (SaslSession.receive_eq_ok.1 received)

theorem stops_of_stepWaitingAuth (phase : before.phase = .waitingAuth)
    (failed : stepWaitingAuth frame before = .error fault after) : Stops before fault after := by
  have hears : Hears before before.clear := .inr ⟨.inl phase, rfl⟩
  rw [stepWaitingAuth, clear_bind] at failed
  split at failed
  case isTrue =>
    refine hears.stops_of_read ServerHandshake.regular_read failed fun message _ stopped => ?_
    rw [agree, bind_apply_ok (get_apply _)] at stopped
    split at stopped
    case isTrue => simp at stopped
    case isFalse => exact hears.stops_of_throw id stopped
  case isFalse =>
    refine hears.stops_of_read Authentication.regular_read failed fun message _ stopped => ?_
    unfold stepDecision at stopped
    split at stopped
    case h_1 => simp [enter] at stopped
    case h_2 offered => exact stops_of_beginSasl phase stopped
    case h_3 => exact stops_of_stray phase stopped

theorem stops_of_stepExchange {client : Scram.Client} {message : Authentication} {event : SaslEvent}
    {sasl : SaslSession} (phase : before.phase = .saslInProgress)
    (scram : before.scram = some client) (received : before.sasl.Receives message event sasl)
    (failed : stepExchange client event { before.clear with sasl } = .error fault after) :
    Stops before fault after := by
  cases event with
  | challenge bytes =>
      rcases bind_apply_eq_error.1 failed with unsolved | ⟨answer, middle, solved, unsent⟩
      · obtain ⟨cause, left, refused, rfl, rfl⟩ := inScram_eq_error.1 unsolved
        obtain rfl := Scram.Client.eq_of_answer_error refused
        rw [← scram]
        exact .unverified phase received
      · obtain ⟨next, -, rfl⟩ := inScram_eq_ok.1 solved
        obtain ⟨given, fails, rfl⟩ := fails_of_transmit unsent
        exact .unsent phase received fails
  | final bytes =>
      obtain ⟨⟨cause, -, rfl⟩, rfl⟩ := ofScram_eq_error.1 failed
      exact .unverified phase received
  | authenticated => simp [stepExchange] at failed

theorem stops_of_stepSaslInProgress (phase : before.phase = .saslInProgress)
    (failed : stepSaslInProgress frame before = .error fault after) : Stops before fault after := by
  have hears : Hears before before.clear := .inr ⟨.inr phase, rfl⟩
  rw [stepSaslInProgress, clear_bind] at failed
  split at failed
  case isFalse => exact hears.stops_of_throw id failed
  case isTrue =>
    refine hears.stops_of_read Authentication.regular_read failed fun message _ stopped => ?_
    rw [bind_apply_ok (get_apply _)] at stopped
    cases scram : before.clear.scram with
    | none =>
        simp only [scram] at stopped
        obtain ⟨rfl, rfl⟩ := EStateM.Result.error.inj stopped
        exact .clientless phase scram
    | some client =>
        simp only [scram] at stopped
        rcases bind_apply_eq_error.1 stopped with refused | ⟨event, middle, taken, stopped⟩
        · obtain ⟨sasl, unexpected, rfl⟩ := inSasl_eq_error.1 refused
          exact .disordered (.inr phase) (SaslSession.fails_of_receive unexpected)
        · obtain ⟨sasl, received, rfl⟩ := inSasl_eq_ok.1 taken
          exact stops_of_stepExchange phase scram (SaslSession.receive_eq_ok.1 received) stopped

theorem stops_of_describeState {message : StateDataDescription}
    (phase : before.phase = .waitingReady)
    (failed : describeState message before = .error fault after) : Stops before fault after := by
  rw [describeState, inCache] at failed
  split at failed
  case isTrue => simp at failed
  case isFalse =>
    cases resolved : Cache.resolve message.stream message.type before.cache with
    | ok codec cache => simp [resolved] at failed
    | error cause cache =>
        simp only [resolved] at failed
        split at failed
        case isTrue => simp at failed
        case isFalse =>
          obtain ⟨rfl, rfl⟩ := EStateM.Result.error.inj failed
          exact .undescribed phase (Cache.liesInBytes_of_resolve resolved)

theorem stops_of_stepWaitingReady (phase : before.phase = .waitingReady)
    (failed : stepWaitingReady frame before = .error fault after) : Stops before fault after := by
  have hears : Hears before before := .inl rfl
  unfold stepWaitingReady at failed
  split at failed
  case isTrue =>
    refine hears.stops_of_read ServerKeyData.regular_read failed fun message _ never => ?_
    simp at never
  case isFalse =>
    split at failed
    case isTrue =>
      refine hears.stops_of_read ParameterStatus.regular_read failed fun message _ never => ?_
      simp at never
    case isFalse =>
      split at failed
      case isTrue =>
        refine hears.stops_of_read StateDataDescription.regular_read failed ?_
        intro message _ undescribed
        exact stops_of_describeState phase undescribed
      case isFalse =>
        split at failed
        case isFalse => exact hears.stops_of_throw id failed
        case isTrue =>
          refine hears.stops_of_read ReadyForCommand.regular_read failed fun message _ never => ?_
          simp at never

theorem silent_eq_error {steps : Steps Unit} :
    (do steps; pure none : Steps (Option ParameterStatus)) before = .error fault after ↔
      steps before = .error fault after := by
  rw [bind_apply_eq_error]
  simp

theorem stops_of_stepPhase (failed : stepPhase frame before = .error fault after) :
    Stops before fault after := by
  have hears : Hears before before := .inl rfl
  cases phase : before.phase with
  | waitingAuth =>
      rw [stepPhase_waitingAuth phase] at failed
      exact stops_of_stepWaitingAuth phase (silent_eq_error.1 failed)
  | saslInProgress =>
      rw [stepPhase_saslInProgress phase] at failed
      exact stops_of_stepSaslInProgress phase (silent_eq_error.1 failed)
  | waitingReady =>
      rw [stepPhase_waitingReady phase] at failed
      exact stops_of_stepWaitingReady phase (silent_eq_error.1 failed)
  | ready =>
      rw [stepPhase_ready phase] at failed
      split at failed
      case isTrue =>
        rcases bind_apply_eq_error.1 failed with unread | ⟨message, middle, -, told⟩
        · refine hears.stops_of_read ParameterStatus.regular_read unread fun message _ never => ?_
          cases never
        · simp at told
      case isFalse => exact hears.stops_of_throw id failed
  | initial =>
      rw [stepPhase_closed (.inl phase)] at failed
      exact hears.stops_of_throw id failed
  | failed =>
      rw [stepPhase_closed (.inr phase)] at failed
      exact hears.stops_of_throw id failed

/-- A notice or an error report with a payload that is none. -/
def Unreadable (frame : Frame) : Prop :=
  (frame.opcode = LogMessage.format.opcode ∧
      ∃ fault, LogMessage.format.ofPayload frame.payload = .error fault) ∨
    frame.opcode = ServerError.format.opcode ∧
      ∃ fault, ServerError.format.ofPayload frame.payload = .error fault

theorem readAs_of_opcode {α : Type} {format : Format α} (same : frame.opcode = format.opcode) :
    frame.readAs format = format.ofPayload frame.payload := by
  rw [Frame.readAs, if_pos same]

/-- A frame whose payload is not what its opcode says is refused for what its bytes say. -/
theorem malformed_of_readAs {α : Type} {format : Format α} (regular : Regular format.read)
    (same : frame.opcode = format.opcode)
    (unread : ofExcept (frame.readAs format) before = .error fault after) :
    (∃ cause, format.ofPayload frame.payload = .error cause) ∧ ¬ fault.IsInternal ∧
      before = after := by
  obtain ⟨malformed, unchanged⟩ := ofExcept_eq_error.1 unread
  have external := external_of_readAs regular malformed
  rw [readAs_of_opcode same] at malformed
  exact ⟨⟨fault, malformed⟩, external, unchanged⟩

/-- A step that fails has refused an unreadable notice or report, or it gives the connection up
where it stops. -/
theorem stops_of_step (failed : step frame before = .error fault after) :
    (Unreadable frame ∧ ¬ fault.IsInternal ∧ before = after) ∨
      (¬ Unreadable frame ∧ ∃ middle, Stops before fault middle ∧ middle.fail = after) := by
  unfold step at failed
  split at failed
  case isTrue notice =>
    rcases bind_apply_eq_error.1 failed with unread | ⟨message, middle, -, logged⟩
    · obtain ⟨malformed, refused⟩ := malformed_of_readAs LogMessage.regular_read notice unread
      exact .inl ⟨.inl ⟨notice, malformed⟩, refused⟩
    · simp at logged
  case isFalse unlogged =>
    split at failed
    case isTrue report =>
      rcases bind_apply_eq_error.1 failed with unread | ⟨message, middle, held, given⟩
      · obtain ⟨malformed, refused⟩ := malformed_of_readAs ServerError.regular_read report unread
        exact .inl ⟨.inr ⟨report, malformed⟩, refused⟩
      · obtain ⟨read, rfl⟩ := ofExcept_eq_ok.1 held
        obtain ⟨middle, thrown, given⟩ := failing_eq_error.1 given
        obtain ⟨rfl, rfl⟩ := EStateM.Result.error.inj thrown
        refine .inr ⟨?_, _, .refused id, given⟩
        rw [readAs_of_opcode report] at read
        rintro (⟨notice, -⟩ | ⟨-, cause, malformed⟩)
        · exact unlogged notice
        · simp [read] at malformed
    case isFalse unreported =>
      obtain stopped | ⟨changed, middle, -, told⟩ := bind_apply_eq_error.1 failed
      case inr => cases told
      obtain ⟨middle, stopped, given⟩ := failing_eq_error.1 stopped
      refine .inr ⟨?_, middle, stops_of_stepPhase stopped, given⟩
      rintro (⟨notice, -⟩ | ⟨report, -⟩)
      · exact unlogged notice
      · exact unreported report

end Connection
end SchemaWire
