import SchemaWire.Proofs.Message.Client
import SchemaWire.SaslSession

/-!
# What an authentication session accepts

A session accepts the messages of an exchange in one order.  A message that cannot be framed leaves
the session as it was, and any message out of order gives it up.
-/

namespace SchemaWire
namespace SaslSession

variable {session after : SaslSession} {fault : Fault}

/-! ## Accepted messages -/

/-- A message is sent in its phase, if it can be framed. -/
theorem transmit_eq_ok {channel given : Channel} {due : SaslPhase} {cause : SequenceFault}
    {message : ClientMessage} {note : SaslSession → SaslSession} :
    transmit due cause message note channel = .ok () given ↔
      channel.session.phase = due ∧ ∃ outbox, message.send channel.outbox = .ok () outbox ∧
        ⟨note channel.session, outbox⟩ = given := by
  rw [transmit]
  split
  case isFalse other => simp [other]
  case isTrue same => cases message.send channel.outbox <;> simp [same]

/-- Where nothing waits to be sent, a message that is sent is then all that waits. -/
theorem transmit_empty_eq_ok {given : Channel} {due : SaslPhase} {cause : SequenceFault}
    {message : ClientMessage} {note : SaslSession → SaslSession} :
    transmit due cause message note ⟨session, #[]⟩ = .ok () given ↔
      session.phase = due ∧ ∃ bytes, message.bytes = .ok bytes ∧
        ⟨note session, bytes.toArray⟩ = given := by
  rw [transmit_eq_ok]
  constructor
  · rintro ⟨same, outbox, sent, rfl⟩
    exact ⟨same, outbox.toList, ClientMessage.send_empty_eq_ok.1 sent, rfl⟩
  · rintro ⟨same, bytes, made, rfl⟩
    exact ⟨same, bytes.toArray, ClientMessage.send_empty_eq_ok.2 made, rfl⟩

theorem start_empty_eq_ok {given : Channel} {mechanism : String} {bytes : List UInt8} :
    start mechanism bytes ⟨session, #[]⟩ = .ok () given ↔
      session.phase = .notStarted ∧
        ∃ reply, (ClientMessage.saslInitialResponse mechanism bytes).bytes = .ok reply ∧
          ⟨{ session.advance .initialResponseSent with mechanism := some mechanism },
            reply.toArray⟩ = given :=
  transmit_empty_eq_ok

theorem respond_empty_eq_ok {given : Channel} {bytes : List UInt8} :
    respond bytes ⟨session, #[]⟩ = .ok () given ↔
      session.phase = .challengeReceived ∧
        ∃ reply, (ClientMessage.saslResponse bytes).bytes = .ok reply ∧
          ⟨session.advance .finalResponseSent, reply.toArray⟩ = given :=
  transmit_empty_eq_ok

/-- A message of the server that an exchange has a use for. -/
inductive Receives (session : SaslSession) : Authentication → SaslEvent → SaslSession → Prop where
  | challenge {bytes : List UInt8} (phase : session.phase = .initialResponseSent) :
      Receives session (.challenge bytes) (.challenge bytes) (session.advance .challengeReceived)
  | final {bytes : List UInt8} (phase : session.phase = .finalResponseSent)
      (unproved : session.finalReceived = false) :
      Receives session (.final bytes) (.final bytes)
        { session.advance .finalResponseSent with finalReceived := true }
  | ok (phase : session.phase = .finalResponseSent) (proved : session.finalReceived = true) :
      Receives session .ok .authenticated (session.advance .authenticated)

theorem receive_eq_ok {message : Authentication} {event : SaslEvent} :
    receive message session = .ok event after ↔ Receives session message event after := by
  constructor
  · intro done
    unfold receive at done
    split at done
    case h_1 bytes phase =>
      obtain ⟨rfl, rfl⟩ := EStateM.Result.ok.inj done
      exact .challenge phase
    case h_2 bytes phase =>
      split at done
      case isTrue => simp [refuse] at done
      case isFalse unproved =>
        obtain ⟨rfl, rfl⟩ := EStateM.Result.ok.inj done
        exact .final phase (by simpa using unproved)
    case h_3 phase =>
      split at done
      case isFalse => simp [refuse] at done
      case isTrue proved =>
        obtain ⟨rfl, rfl⟩ := EStateM.Result.ok.inj done
        exact .ok phase proved
    case h_4 => simp [refuse] at done
  · intro received
    cases received with
    | challenge phase => simp [receive, phase]
    | final phase unproved => simp [receive, phase, unproved]
    | ok phase proved => simp [receive, phase, proved]

/-! ## Refused messages -/

/-- A message that an exchange does not accept cannot be framed, or comes out of order. -/
inductive Fails (session : SaslSession) : Fault → SaslSession → Prop where
  | unframed {cause : EncodeFault} : Fails session (.encode cause) session
  | disordered {cause : SequenceFault} :
      Fails session (.sequence session.phase cause) session.fail

theorem refuse_eq_error {α : Type} {cause : SequenceFault} :
    (refuse cause : Exchanges α) session = .error fault after ↔
      .sequence session.phase cause = fault ∧ session.fail = after := by
  simp [refuse]

/-- A message that is not sent leaves what waits as it was. -/
theorem fails_of_transmit {channel given : Channel} {due : SaslPhase} {cause : SequenceFault}
    {message : ClientMessage} {note : SaslSession → SaslSession}
    (failed : transmit due cause message note channel = .error fault given) :
    channel.session.Fails fault given.session ∧ given.outbox = channel.outbox := by
  rw [transmit] at failed
  split at failed
  case isFalse =>
    obtain ⟨rfl, rfl⟩ := EStateM.Result.error.inj failed
    exact ⟨.disordered, rfl⟩
  case isTrue =>
    cases sent : message.send channel.outbox with
    | ok _ outbox => simp [sent] at failed
    | error flaw outbox =>
        rw [sent] at failed
        obtain ⟨rfl, rfl⟩ := EStateM.Result.error.inj failed
        obtain ⟨⟨cause, rfl⟩, rfl⟩ := ClientMessage.send_eq_error sent
        exact ⟨.unframed, rfl⟩

/-- A message of the server that is not accepted comes out of order. -/
theorem receive_eq_error {message : Authentication}
    (failed : receive message session = .error fault after) :
    ∃ cause, .sequence session.phase cause = fault ∧ session.fail = after := by
  unfold receive at failed
  split at failed
  case h_1 => simp at failed
  case h_2 =>
    split at failed
    case isTrue => exact ⟨_, refuse_eq_error.1 failed⟩
    case isFalse => simp at failed
  case h_3 =>
    split at failed
    case isTrue => simp at failed
    case isFalse => exact ⟨_, refuse_eq_error.1 failed⟩
  case h_4 => exact ⟨_, refuse_eq_error.1 failed⟩

theorem fails_of_receive {message : Authentication}
    (failed : receive message session = .error fault after) : session.Fails fault after := by
  obtain ⟨cause, rfl, rfl⟩ := receive_eq_error failed
  exact .disordered

end SaslSession
end SchemaWire
