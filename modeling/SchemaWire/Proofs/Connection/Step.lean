import SchemaWire.Connection.Run
import SchemaWire.Proofs.Message.Server
import SchemaWire.Proofs.SaslSession.Step

/-!
# What a connection accepts

A message that a connection accepts takes it over one of twelve transitions.  They are read off
the machine once, in both directions; what holds of all steps follows by cases on the transition.
-/

namespace SchemaWire

open Fallible

namespace Connection

variable {before after : Connection} {frame : Frame} {action : Action}

/-! ## Parts of a step -/

theorem ofExcept_eq_ok {α : Type} {result : Except Fault α} {value : α} :
    ofExcept result before = .ok value after ↔ result = .ok value ∧ before = after := by
  cases result <;> simp [ofExcept]

theorem ofExcept_bind_eq_ok {α β : Type} {result : Except Fault α} {next : α → Steps β}
    {value : β} :
    (do let item ← ofExcept result; next item : Steps β) before = .ok value after ↔
      ∃ item, result = .ok item ∧ next item before = .ok value after := by
  constructor
  · intro done
    obtain ⟨item, middle, held, done⟩ := bind_apply_eq_ok.1 done
    obtain ⟨made, rfl⟩ := ofExcept_eq_ok.1 held
    exact ⟨item, made, done⟩
  · rintro ⟨item, made, done⟩
    exact bind_apply_eq_ok.2 ⟨item, before, ofExcept_eq_ok.2 ⟨made, rfl⟩, done⟩

theorem ofScram_eq_ok {α : Type} {result : Except ScramFault α} {value : α} :
    ofScram result before = .ok value after ↔ result = .ok value ∧ before = after := by
  cases result <;> simp [ofScram]

theorem inSasl_eq_ok {α : Type} {exchange : Exchanges α} {value : α} :
    inSasl exchange before = .ok value after ↔
      ∃ sasl, exchange before.sasl = .ok value sasl ∧ { before with sasl } = after := by
  rw [inSasl]
  cases exchange before.sasl with
  | ok held sasl => simp [and_assoc]
  | error fault sasl => simp

theorem inScram_eq_ok {α : Type} {client : Scram.Client} {answers : Scram.Answers α} {value : α} :
    inScram client answers before = .ok value after ↔
      ∃ next, answers client = .ok value next ∧ { before with scram := some next } = after := by
  rw [inScram]
  cases answers client with
  | ok held next => simp [and_assoc]
  | error fault next => simp

theorem transmit_eq_ok {α : Type} {transmits : SaslSession.Transmits α} {value : α} :
    transmit transmits before = .ok value after ↔
      ∃ channel, transmits ⟨before.sasl, before.outbox⟩ = .ok value channel ∧
        { before with sasl := channel.session, outbox := channel.outbox } = after := by
  rw [transmit]
  cases transmits ⟨before.sasl, before.outbox⟩ with
  | ok held channel => simp [and_assoc]
  | error fault channel => simp

theorem send_eq_ok {message : ClientMessage} :
    send message before = .ok () after ↔
      ∃ outbox, message.send before.outbox = .ok () outbox ∧ { before with outbox } = after := by
  rw [send]
  cases message.send before.outbox with
  | ok _ outbox => simp
  | error fault outbox => simp

/-- A step that first clears the outbox is a step of a connection with nothing left to be sent. -/
theorem clear_bind {α : Type} (steps : Steps α) (connection : Connection) :
    (do modify clear; steps : Steps α) connection = steps connection.clear :=
  bind_apply_ok (modify_apply clear connection)

theorem failing_eq_ok {α : Type} {steps : Steps α} {value : α} :
    failing steps before = .ok value after ↔ steps before = .ok value after := by
  rw [failing]
  split <;> simp_all

/-! ## The description of the session state -/

/-- A description tells the codec of the session state: none if it is empty, that of its type if
it resolves, and none if it fails only because the type is not supported. -/
inductive Describes (cache : Cache) (message : StateDataDescription) :
    Cache → Option Codec → Prop where
  | empty (nothing : message.stream = []) :
      Describes cache message (cache.enter message.type) none
  | resolved {codec : Codec} {grown : Cache} (something : message.stream ≠ [])
      (found : Cache.resolve message.stream message.type cache = .ok codec grown) :
      Describes cache message grown (some codec)
  | unsupported {type : Uuid} {cause : ShapeFault} {entered : Cache}
      (something : message.stream ≠ [])
      (refused : Cache.resolve message.stream message.type cache =
        .error (.unsupportedShape type cause) entered) :
      Describes cache message entered none

theorem isUnsupportedShape_iff {fault : Fault} :
    isUnsupportedShape fault = true ↔ ∃ type cause, fault = .unsupportedShape type cause := by
  cases fault <;> simp [isUnsupportedShape]

theorem describeState_eq_ok {message : StateDataDescription} :
    describeState message before = .ok () after ↔
      ∃ cache codec, Describes before.cache message cache codec ∧
        { before with cache, stateCodec := codec } = after := by
  rw [describeState, inCache]
  constructor
  · intro done
    split at done
    case isTrue empty =>
      obtain rfl := (EStateM.Result.ok.inj done).2
      exact ⟨_, _, .empty (List.isEmpty_iff.1 empty), rfl⟩
    case isFalse filled =>
      have something : message.stream ≠ [] := fun empty => filled (List.isEmpty_iff.2 empty)
      cases found : Cache.resolve message.stream message.type before.cache with
      | ok codec cache =>
          simp only [found] at done
          obtain rfl := (EStateM.Result.ok.inj done).2
          exact ⟨_, _, .resolved something found, rfl⟩
      | error fault cache =>
          simp only [found] at done
          split at done
          case isFalse => simp at done
          case isTrue unsupported =>
            obtain ⟨type, cause, rfl⟩ := isUnsupportedShape_iff.1 unsupported
            obtain rfl := (EStateM.Result.ok.inj done).2
            exact ⟨_, _, .unsupported something found, rfl⟩
  · rintro ⟨cache, codec, described, rfl⟩
    cases described with
    | empty nothing => simp [nothing]
    | resolved something found => simp [something, found]
    | unsupported something refused => simp [something, refused, isUnsupportedShape]

/-! ## Transitions of a connection -/

/-- The client that a connection with some settings authenticates as. -/
def clientFor (settings : Settings) (random : List UInt8) (password : String) : Scram.Client :=
  Scram.Client.ofRandom settings.user password random

/-- A connection accepts a frame, takes an action, and goes over into another connection.  As long
as it may have something to say, nothing is left in its outbox but what it says to the frame. -/
inductive Accepts (before : Connection) (frame : Frame) : Action → Connection → Prop where
  | notice {message : LogMessage} (read : frame.readAs LogMessage.format = .ok message) :
      Accepts before frame (.log message) before
  | agreed {message : ServerHandshake} (phase : before.phase = .waitingAuth)
      (read : frame.readAs ServerHandshake.format = .ok message)
      (near : message.version.major = before.settings.version.major) :
      Accepts before frame .read { before with version := message.version, outbox := #[] }
  | trusted (phase : before.phase = .waitingAuth)
      (read : frame.readAs Authentication.format = .ok .ok) :
      Accepts before frame .read { before with phase := .waitingReady, outbox := #[] }
  | begun {offered : List String} {password : String} {bytes : List UInt8}
      (phase : before.phase = .waitingAuth)
      (read : frame.readAs Authentication.format = .ok (.mechanisms offered))
      (known : Scram.mechanism ∈ offered) (secret : before.settings.password = some password)
      (fresh : before.sasl.phase = .notStarted)
      (made : (ClientMessage.saslInitialResponse Scram.mechanism
        (Utf8.encode (clientFor before.settings before.random password).first)).bytes =
          .ok bytes) :
      Accepts before frame (.write bytes)
        { before with
          sasl := { before.sasl.advance .initialResponseSent with
            mechanism := some Scram.mechanism }
          scram := some (clientFor before.settings before.random password)
          phase := .saslInProgress, outbox := bytes.toArray }
  | challenged {bytes reply : List UInt8} {client next : Scram.Client} {answer : String}
      (phase : before.phase = .saslInProgress)
      (read : frame.readAs Authentication.format = .ok (.challenge bytes))
      (scram : before.scram = some client)
      (expected : before.sasl.phase = .initialResponseSent)
      (answered : Scram.Client.answer bytes client = .ok answer next)
      (made : (ClientMessage.saslResponse (Utf8.encode answer)).bytes = .ok reply) :
      Accepts before frame (.write reply)
        { before with
          sasl := (before.sasl.advance .challengeReceived).advance .finalResponseSent
          scram := some next, outbox := reply.toArray }
  | verified {bytes : List UInt8} {client : Scram.Client} (phase : before.phase = .saslInProgress)
      (read : frame.readAs Authentication.format = .ok (.final bytes))
      (scram : before.scram = some client)
      (expected : before.sasl.phase = .finalResponseSent)
      (unproved : before.sasl.finalReceived = false)
      (genuine : client.verify bytes = .ok ()) :
      Accepts before frame .read
        { before with
          sasl := { before.sasl.advance .finalResponseSent with finalReceived := true }
          outbox := #[] }
  | authenticated {client : Scram.Client} (phase : before.phase = .saslInProgress)
      (read : frame.readAs Authentication.format = .ok .ok) (scram : before.scram = some client)
      (expected : before.sasl.phase = .finalResponseSent)
      (proved : before.sasl.finalReceived = true) :
      Accepts before frame .read
        { before with
          sasl := before.sasl.advance .authenticated, scram := none, phase := .waitingReady
          outbox := #[] }
  | keyed {message : ServerKeyData} (phase : before.phase = .waitingReady)
      (read : frame.readAs ServerKeyData.format = .ok message) :
      Accepts before frame .read { before with keyData := some message.key }
  | told {message : ParameterStatus} (phase : before.phase = .waitingReady)
      (read : frame.readAs ParameterStatus.format = .ok message) :
      Accepts before frame .read
        { before with parameters := before.parameters ++ [(message.name, message.value)] }
  | described {message : StateDataDescription} {cache : Cache} {codec : Option Codec}
      (phase : before.phase = .waitingReady)
      (read : frame.readAs StateDataDescription.format = .ok message)
      (noted : Describes before.cache message cache codec) :
      Accepts before frame .read { before with cache, stateCodec := codec }
  | readied {message : ReadyForCommand} (phase : before.phase = .waitingReady)
      (read : frame.readAs ReadyForCommand.format = .ok message) :
      Accepts before frame .finished
        { before with
          transaction := message.transactionState?.getD .notInTransaction, phase := .ready }
  | changed {message : ParameterStatus} (phase : before.phase = .ready)
      (read : frame.readAs ParameterStatus.format = .ok message) :
      Accepts before frame (.parameterChanged message)
        { before with
          parameters := putParameter message.name message.value before.parameters }

/-- A transition leads to the action that the connection after it tells. -/
theorem Accepts.of_next {changed : Option ParameterStatus}
    (accepted : Accepts before frame action after) (told : after.next changed = action) :
    Accepts before frame (after.next changed) after := by
  rwa [told]

theorem accepts_of_beginSasl {offered : List String} (phase : before.phase = .waitingAuth)
    (read : frame.readAs Authentication.format = .ok (.mechanisms offered))
    (done : beginSasl offered before.clear = .ok () after) :
    Accepts before frame (after.next none) after := by
  rw [beginSasl, bind_apply_ok (get_apply _)] at done
  split at done
  case isFalse => simp at done
  case isTrue known =>
    cases secret : before.clear.settings.password with
    | none => simp [secret] at done
    | some password =>
        simp only [secret] at done
        obtain ⟨_, middle, begun, done⟩ := bind_apply_eq_ok.1 done
        obtain ⟨channel, sent, rfl⟩ := transmit_eq_ok.1 begun
        obtain ⟨fresh, bytes, made, rfl⟩ := SaslSession.start_empty_eq_ok.1 sent
        obtain ⟨-, rfl⟩ := EStateM.Result.ok.inj done
        exact (Accepts.begun phase read known secret fresh made).of_next
          (next_of_written rfl rfl (ClientMessage.ne_nil_of_bytes made))

theorem accepts_of_stepWaitingAuth (phase : before.phase = .waitingAuth)
    (done : stepWaitingAuth frame before = .ok () after) :
    Accepts before frame (after.next none) after := by
  have waiting : before.phase ≠ .ready := by simp [phase]
  rw [stepWaitingAuth, clear_bind] at done
  split at done
  case isTrue =>
    obtain ⟨message, read, done⟩ := ofExcept_bind_eq_ok.1 done
    rw [agree, bind_apply_ok (get_apply _)] at done
    split at done
    case isFalse => simp at done
    case isTrue near =>
      obtain ⟨-, rfl⟩ := EStateM.Result.ok.inj done
      exact (Accepts.agreed phase read near).of_next (next_of_clear rfl waiting)
  case isFalse =>
    obtain ⟨message, read, done⟩ := ofExcept_bind_eq_ok.1 done
    unfold stepDecision at done
    split at done
    case h_1 =>
      obtain ⟨-, rfl⟩ := EStateM.Result.ok.inj done
      exact (Accepts.trusted phase read).of_next (next_of_waitingReady rfl)
    case h_2 offered => exact accepts_of_beginSasl phase read done
    case h_3 =>
      obtain ⟨event, middle, -, refused⟩ := bind_apply_eq_ok.1 done
      simp at refused

theorem accepts_of_stepSaslInProgress (phase : before.phase = .saslInProgress)
    (done : stepSaslInProgress frame before = .ok () after) :
    Accepts before frame (after.next none) after := by
  rw [stepSaslInProgress, clear_bind] at done
  split at done
  case isFalse => simp at done
  case isTrue =>
    obtain ⟨message, read, done⟩ := ofExcept_bind_eq_ok.1 done
    rw [bind_apply_ok (get_apply _)] at done
    cases scram : before.clear.scram with
    | none => simp [scram] at done
    | some client =>
        simp only [scram] at done
        obtain ⟨event, middle, taken, done⟩ := bind_apply_eq_ok.1 done
        obtain ⟨sasl, received, rfl⟩ := inSasl_eq_ok.1 taken
        cases SaslSession.receive_eq_ok.1 received with
        | @challenge bytes expected =>
            obtain ⟨answer, middle, solved, done⟩ := bind_apply_eq_ok.1 done
            obtain ⟨next, answered, rfl⟩ := inScram_eq_ok.1 solved
            obtain ⟨channel, sent, rfl⟩ := transmit_eq_ok.1 done
            obtain ⟨-, reply, made, rfl⟩ := SaslSession.respond_empty_eq_ok.1 sent
            exact (Accepts.challenged phase read scram expected answered made).of_next
              (next_of_written phase rfl (ClientMessage.ne_nil_of_bytes made))
        | @final bytes expected unproved =>
            obtain ⟨genuine, rfl⟩ := ofScram_eq_ok.1 done
            have exchanging : before.phase ≠ .ready := by simp [phase]
            exact (Accepts.verified phase read scram expected unproved genuine).of_next
              (next_of_clear rfl exchanging)
        | ok expected proved =>
            obtain ⟨-, rfl⟩ := EStateM.Result.ok.inj done
            exact (Accepts.authenticated phase read scram expected proved).of_next
              (next_of_waitingReady rfl)

theorem accepts_of_stepWaitingReady (phase : before.phase = .waitingReady)
    (done : stepWaitingReady frame before = .ok () after) :
    Accepts before frame (after.next none) after := by
  unfold stepWaitingReady at done
  split at done
  case isTrue =>
    obtain ⟨message, read, done⟩ := ofExcept_bind_eq_ok.1 done
    obtain ⟨-, rfl⟩ := EStateM.Result.ok.inj done
    exact (Accepts.keyed phase read).of_next (next_of_waitingReady phase)
  case isFalse =>
    split at done
    case isTrue =>
      obtain ⟨message, read, done⟩ := ofExcept_bind_eq_ok.1 done
      obtain ⟨-, rfl⟩ := EStateM.Result.ok.inj done
      exact (Accepts.told phase read).of_next (next_of_waitingReady phase)
    case isFalse =>
      split at done
      case isTrue =>
        obtain ⟨message, read, done⟩ := ofExcept_bind_eq_ok.1 done
        obtain ⟨cache, codec, noted, rfl⟩ := describeState_eq_ok.1 done
        exact (Accepts.described phase read noted).of_next (next_of_waitingReady phase)
      case isFalse =>
        split at done
        case isFalse => simp at done
        case isTrue =>
          obtain ⟨message, read, done⟩ := ofExcept_bind_eq_ok.1 done
          obtain ⟨-, rfl⟩ := EStateM.Result.ok.inj done
          exact (Accepts.readied phase read).of_next (next_of_ready rfl)

theorem stepPhase_waitingAuth (phase : before.phase = .waitingAuth) :
    stepPhase frame before = (do stepWaitingAuth frame; pure none) before := by
  rw [stepPhase, bind_apply_ok (get_apply _)]
  simp only [phase]

theorem stepPhase_saslInProgress (phase : before.phase = .saslInProgress) :
    stepPhase frame before = (do stepSaslInProgress frame; pure none) before := by
  rw [stepPhase, bind_apply_ok (get_apply _)]
  simp only [phase]

theorem stepPhase_waitingReady (phase : before.phase = .waitingReady) :
    stepPhase frame before = (do stepWaitingReady frame; pure none) before := by
  rw [stepPhase, bind_apply_ok (get_apply _)]
  simp only [phase]

theorem stepPhase_ready (phase : before.phase = .ready) :
    stepPhase frame before =
      if frame.opcode = ParameterStatus.format.opcode then
        (do let message ← stepParameter frame; pure (some message)) before
      else
        .error (.protocol (.unexpected frame.opcode .ready)) before := by
  rw [stepPhase, bind_apply_ok (get_apply _)]
  simp only [phase]
  split <;> rfl

theorem stepPhase_closed (phase : before.phase = .initial ∨ before.phase = .failed) :
    stepPhase frame before =
      .error (.protocol (.unexpected frame.opcode before.phase)) before := by
  rw [stepPhase, bind_apply_ok (get_apply _)]
  rcases phase with phase | phase <;> simp only [phase] <;> rfl

theorem silent_eq_ok {steps : Steps Unit} {changed : Option ParameterStatus} :
    (do steps; pure none : Steps (Option ParameterStatus)) before = .ok changed after ↔
      steps before = .ok () after ∧ none = changed := by
  constructor
  · intro done
    obtain ⟨_, middle, first, last⟩ := bind_apply_eq_ok.1 done
    obtain ⟨rfl, rfl⟩ := EStateM.Result.ok.inj last
    exact ⟨first, rfl⟩
  · rintro ⟨first, rfl⟩
    exact bind_apply_eq_ok.2 ⟨(), after, first, rfl⟩

theorem accepts_of_stepPhase {changed : Option ParameterStatus}
    (done : stepPhase frame before = .ok changed after) :
    Accepts before frame (after.next changed) after := by
  cases phase : before.phase with
  | initial => simp [stepPhase_closed (.inl phase)] at done
  | waitingAuth =>
      rw [stepPhase_waitingAuth phase] at done
      obtain ⟨taken, rfl⟩ := silent_eq_ok.1 done
      exact accepts_of_stepWaitingAuth phase taken
  | saslInProgress =>
      rw [stepPhase_saslInProgress phase] at done
      obtain ⟨taken, rfl⟩ := silent_eq_ok.1 done
      exact accepts_of_stepSaslInProgress phase taken
  | waitingReady =>
      rw [stepPhase_waitingReady phase] at done
      obtain ⟨taken, rfl⟩ := silent_eq_ok.1 done
      exact accepts_of_stepWaitingReady phase taken
  | ready =>
      rw [stepPhase_ready phase] at done
      split at done
      case isFalse => simp at done
      case isTrue =>
        obtain ⟨message, middle, taken, last⟩ := bind_apply_eq_ok.1 done
        obtain ⟨message, read, taken⟩ := ofExcept_bind_eq_ok.1 taken
        obtain ⟨rfl, rfl⟩ := EStateM.Result.ok.inj taken
        obtain ⟨rfl, rfl⟩ := EStateM.Result.ok.inj last
        exact (Accepts.changed phase read).of_next rfl
  | failed => simp [stepPhase_closed (.inr phase)] at done

theorem accepts_of_step (done : step frame before = .ok action after) :
    Accepts before frame action after := by
  unfold step at done
  split at done
  case isTrue =>
    obtain ⟨message, read, done⟩ := ofExcept_bind_eq_ok.1 done
    obtain ⟨rfl, rfl⟩ := EStateM.Result.ok.inj done
    exact .notice read
  case isFalse =>
    split at done
    case isTrue =>
      obtain ⟨report, -, done⟩ := ofExcept_bind_eq_ok.1 done
      simp [failing_eq_ok] at done
    case isFalse =>
      obtain ⟨changed, middle, taken, done⟩ := bind_apply_eq_ok.1 done
      obtain ⟨rfl, rfl⟩ := EStateM.Result.ok.inj done
      exact accepts_of_stepPhase (failing_eq_ok.1 taken)

/-! ## Steps of transitions -/

section

variable {α : Type} {format : Format α} {message : α}

theorem read_then {β : Type} (read : frame.readAs format = .ok message) (next : α → Steps β) :
    (do let message ← ofExcept (frame.readAs format); next message) before =
      next message before :=
  bind_apply_ok (ofExcept_eq_ok.2 ⟨read, rfl⟩)

theorem opcode_ne_of_readAs {opcode : UInt8} (read : frame.readAs format = .ok message)
    (other : format.opcode ≠ opcode) : frame.opcode ≠ opcode := by
  rwa [(Frame.readAs_eq_ok.1 read).1]

/-- A message that is neither a notice nor an error report is left to the phase. -/
theorem step_of_stepPhase {changed : Option ParameterStatus}
    (read : frame.readAs format = .ok message)
    (unlogged : format.opcode ≠ LogMessage.format.opcode)
    (unreported : format.opcode ≠ ServerError.format.opcode)
    (done : stepPhase frame before = .ok changed after) (told : after.next changed = action) :
    step frame before = .ok action after := by
  subst told
  rw [step, if_neg (opcode_ne_of_readAs read unlogged),
    if_neg (opcode_ne_of_readAs read unreported)]
  exact bind_apply_eq_ok.2 ⟨changed, after, failing_eq_ok.2 done, rfl⟩

end

theorem stepWaitingAuth_of_readAs {message : Authentication}
    (read : frame.readAs Authentication.format = .ok message) :
    stepWaitingAuth frame before = stepDecision message before.clear := by
  rw [stepWaitingAuth, clear_bind, if_neg (opcode_ne_of_readAs read (by decide)), read_then read]

theorem stepSaslInProgress_of_readAs {message : Authentication} {client : Scram.Client}
    (read : frame.readAs Authentication.format = .ok message)
    (scram : before.scram = some client) :
    stepSaslInProgress frame before =
      (do
        let event ← inSasl (SaslSession.receive message)
        stepExchange client event : Steps Unit) before.clear := by
  have known : before.clear.scram = some client := scram
  rw [stepSaslInProgress, clear_bind, if_pos (Frame.readAs_eq_ok.1 read).1, read_then read,
    bind_apply_ok (get_apply _)]
  simp only [known]

theorem Accepts.step (accepted : Accepts before frame action after) :
    step frame before = .ok action after := by
  cases accepted with
  | notice read =>
      rw [Connection.step, if_pos (Frame.readAs_eq_ok.1 read).1, read_then read]
      rfl
  | agreed phase read near =>
      have waiting : before.phase ≠ .ready := by simp [phase]
      refine step_of_stepPhase read (by decide) (by decide) ?_ (next_of_clear rfl waiting)
      rw [stepPhase_waitingAuth phase, silent_eq_ok, stepWaitingAuth, clear_bind,
        if_pos (Frame.readAs_eq_ok.1 read).1, read_then read, agree, bind_apply_ok (get_apply _)]
      exact ⟨if_pos near ▸ rfl, rfl⟩
  | trusted phase read =>
      refine step_of_stepPhase read (by decide) (by decide) ?_ (next_of_waitingReady rfl)
      rw [stepPhase_waitingAuth phase, silent_eq_ok, stepWaitingAuth_of_readAs read]
      exact ⟨rfl, rfl⟩
  | @begun offered password bytes phase read known secret fresh made =>
      refine step_of_stepPhase read (by decide) (by decide) ?_
        (next_of_written rfl rfl (ClientMessage.ne_nil_of_bytes made))
      rw [stepPhase_waitingAuth phase, silent_eq_ok, stepWaitingAuth_of_readAs read]
      refine ⟨?_, rfl⟩
      have sent := SaslSession.start_empty_eq_ok.2 ⟨fresh, bytes, made, rfl⟩
      have held : before.clear.settings.password = some password := secret
      rw [stepDecision, beginSasl, bind_apply_ok (get_apply _), if_pos known]
      simp only [held]
      exact bind_apply_eq_ok.2 ⟨(), _, transmit_eq_ok.2 ⟨_, sent, rfl⟩, rfl⟩
  | @challenged bytes reply client next answer phase read scram expected answered made =>
      refine step_of_stepPhase read (by decide) (by decide) ?_
        (next_of_written phase rfl (ClientMessage.ne_nil_of_bytes made))
      rw [stepPhase_saslInProgress phase, silent_eq_ok, stepSaslInProgress_of_readAs read scram]
      refine ⟨?_, rfl⟩
      refine bind_apply_eq_ok.2 ⟨_, _, inSasl_eq_ok.2
        ⟨_, SaslSession.receive_eq_ok.2 (.challenge expected), rfl⟩, ?_⟩
      refine bind_apply_eq_ok.2 ⟨_, _, inScram_eq_ok.2 ⟨next, answered, rfl⟩, ?_⟩
      have sent := (@SaslSession.respond_empty_eq_ok
        (before.sasl.advance .challengeReceived) _ _).2 ⟨rfl, reply, made, rfl⟩
      exact transmit_eq_ok.2 ⟨_, sent, rfl⟩
  | verified phase read scram expected unproved genuine =>
      have exchanging : before.phase ≠ .ready := by simp [phase]
      refine step_of_stepPhase read (by decide) (by decide) ?_ (next_of_clear rfl exchanging)
      rw [stepPhase_saslInProgress phase, silent_eq_ok, stepSaslInProgress_of_readAs read scram]
      refine ⟨?_, rfl⟩
      refine bind_apply_eq_ok.2 ⟨_, _, inSasl_eq_ok.2
        ⟨_, SaslSession.receive_eq_ok.2 (.final expected unproved), rfl⟩, ?_⟩
      exact ofScram_eq_ok.2 ⟨genuine, rfl⟩
  | authenticated phase read scram expected proved =>
      refine step_of_stepPhase read (by decide) (by decide) ?_ (next_of_waitingReady rfl)
      rw [stepPhase_saslInProgress phase, silent_eq_ok, stepSaslInProgress_of_readAs read scram]
      refine ⟨?_, rfl⟩
      exact bind_apply_eq_ok.2 ⟨_, _, inSasl_eq_ok.2
        ⟨_, SaslSession.receive_eq_ok.2 (.ok expected proved), rfl⟩, rfl⟩
  | keyed phase read =>
      refine step_of_stepPhase read (by decide) (by decide) ?_ (next_of_waitingReady phase)
      rw [stepPhase_waitingReady phase, silent_eq_ok, stepWaitingReady,
        if_pos (Frame.readAs_eq_ok.1 read).1, read_then read]
      exact ⟨rfl, rfl⟩
  | told phase read =>
      refine step_of_stepPhase read (by decide) (by decide) ?_ (next_of_waitingReady phase)
      rw [stepPhase_waitingReady phase, silent_eq_ok, stepWaitingReady,
        if_neg (opcode_ne_of_readAs read (by decide)), if_pos (Frame.readAs_eq_ok.1 read).1,
        read_then read]
      exact ⟨rfl, rfl⟩
  | described phase read noted =>
      refine step_of_stepPhase read (by decide) (by decide) ?_ (next_of_waitingReady phase)
      rw [stepPhase_waitingReady phase, silent_eq_ok, stepWaitingReady,
        if_neg (opcode_ne_of_readAs read (by decide)),
        if_neg (opcode_ne_of_readAs read (by decide)), if_pos (Frame.readAs_eq_ok.1 read).1,
        read_then read]
      exact ⟨describeState_eq_ok.2 ⟨_, _, noted, rfl⟩, rfl⟩
  | readied phase read =>
      refine step_of_stepPhase read (by decide) (by decide) ?_ (next_of_ready rfl)
      rw [stepPhase_waitingReady phase, silent_eq_ok, stepWaitingReady,
        if_neg (opcode_ne_of_readAs read (by decide)),
        if_neg (opcode_ne_of_readAs read (by decide)),
        if_neg (opcode_ne_of_readAs read (by decide)), if_pos (Frame.readAs_eq_ok.1 read).1,
        read_then read]
      exact ⟨rfl, rfl⟩
  | @changed message phase read =>
      refine @step_of_stepPhase _ _ _ _ _ _ _ (some message) read (by decide) (by decide) ?_ rfl
      rw [stepPhase_ready phase, if_pos (Frame.readAs_eq_ok.1 read).1]
      refine bind_apply_eq_ok.2 ⟨message, _, ?_, rfl⟩
      rw [stepParameter, read_then read]
      rfl

/-- The messages that a connection accepts are the ones for which it has a transition. -/
theorem step_eq_ok :
    step frame before = .ok action after ↔ Accepts before frame action after :=
  ⟨accepts_of_step, Accepts.step⟩

/-! ## Opening a connection -/

theorem start_eq_ok :
    start before = .ok action after ↔
      before.phase = .initial ∧ ∃ bytes, (handshake before.settings).bytes = .ok bytes ∧
        .write bytes = action ∧
          { before with phase := .waitingAuth, outbox := bytes.toArray } = after := by
  rw [start, bind_apply_ok (get_apply _)]
  constructor
  · intro done
    split at done
    case isFalse => simp at done
    case isTrue phase =>
      rw [clear_bind] at done
      obtain ⟨_, middle, written, done⟩ := bind_apply_eq_ok.1 done
      obtain ⟨outbox, sent, rfl⟩ := send_eq_ok.1 written
      obtain ⟨rfl, rfl⟩ := EStateM.Result.ok.inj done
      exact ⟨phase, outbox.toList, ClientMessage.send_empty_eq_ok.1 sent, rfl, rfl⟩
  · rintro ⟨phase, bytes, made, rfl, rfl⟩
    have sent : send (handshake before.settings) before.clear = .ok () _ :=
      send_eq_ok.2 ⟨bytes.toArray, ClientMessage.send_empty_eq_ok.2 made, rfl⟩
    rw [if_pos phase, clear_bind, bind_apply_ok sent]
    rfl

theorem send_eq_error {message : ClientMessage} {fault : Fault}
    (failed : send message before = .error fault after) :
    (∃ cause, fault = .encode cause) ∧ after = before := by
  rw [send] at failed
  cases sent : message.send before.outbox with
  | ok _ outbox => simp [sent] at failed
  | error flaw outbox =>
      obtain ⟨encode, rfl⟩ := ClientMessage.send_eq_error sent
      rw [sent] at failed
      obtain ⟨rfl, rfl⟩ := EStateM.Result.error.inj failed
      exact ⟨encode, rfl⟩

/-- A connection cannot be opened twice; one whose handshake cannot be framed can still be opened,
and has nothing to send. -/
theorem start_eq_error {fault : Fault} (failed : start before = .error fault after) :
    (fault = .protocol (.startedBefore before.phase) ∧ after = before) ∨
      before.phase = .initial ∧ (∃ cause, fault = .encode cause) ∧ after = before.clear := by
  rw [start, bind_apply_ok (get_apply _)] at failed
  split at failed
  case isFalse =>
    obtain ⟨rfl, rfl⟩ := EStateM.Result.error.inj failed
    exact .inl ⟨rfl, rfl⟩
  case isTrue phase =>
    rw [clear_bind] at failed
    rcases bind_apply_eq_error.1 failed with unsent | ⟨_, middle, -, opened⟩
    · exact .inr ⟨phase, send_eq_error unsent⟩
    · cases opened

/-! ## Calls in turn -/

theorem apply_step_eq_ok :
    before.apply (.step frame) = (.ok action, after) ↔ Accepts before frame action after := by
  rw [← step_eq_ok, apply]
  cases step frame before <;> simp

theorem apply_start_eq_ok :
    before.apply .start = (.ok action, after) ↔ start before = .ok action after := by
  rw [apply]
  cases start before <;> simp

end Connection
end SchemaWire
