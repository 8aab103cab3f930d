import SchemaWire.Proofs.Connection.Authentication

/-!
# The password shows in the proof alone

Two connections that were told different passwords, and are otherwise alike, are called alike.  All
they say is the same, up to the answer that each of them gives to a challenge: these have the same
length, and differ at most in the proof at their ends.
-/

namespace SchemaWire

open Fallible

/-! ## The answer to a challenge -/

namespace Scram.Client

/-- What remains of a challenge once a client with a password has answered it. -/
def answeredWith (password : String) (salt : List UInt8) (iterations : Nat) (signed : String) :
    Answered :=
  ⟨Keyed.derive (Utf8.encode password) salt iterations, signed⟩

/-- The proof in such an answer. -/
def proofWith (password : String) (salt : List UInt8) (iterations : Nat) (signed : String) :
    List UInt8 :=
  proof (Keyed.derive (Utf8.encode password) salt iterations) signed

theorem length_proofWith (password : String) (salt : List UInt8) (iterations : Nat)
    (signed : String) : (proofWith password salt iterations signed).length = 32 :=
  length_proof _ signed

/-- Whether a client answers a message does not depend on its password, nor does anything in the
answer but the proof. -/
theorem answer_password (client : Client) (challenge : List UInt8) :
    (∃ fault, ∀ password,
      answer challenge { client with password } = .error fault { client with password }) ∨
      ∃ front salt iterations signed, ∀ password,
        answer challenge { client with password } =
          .ok (front ++ Base64.text (proofWith password salt iterations signed))
            { client with
              password, answered := some (answeredWith password salt iterations signed) } := by
  simp only [answer_apply]
  cases Utf8.decode challenge with
  | error flaw => exact .inl ⟨_, fun password => rfl⟩
  | ok message =>
      -- The client's nonce is all that an offer is held against.
      have unread (password : String) :
          { client with password }.readOffer message = client.readOffer message := rfl
      simp only [unread]
      cases client.readOffer message with
      | error fault => exact .inl ⟨fault, fun password => rfl⟩
      | ok offer =>
          obtain ⟨nonce, salt, iterations⟩ := offer
          exact .inr ⟨finalBare nonce ++ ",p=", salt, iterations,
            client.signedText message nonce, fun password => rfl⟩

theorem verify_password (client : Client) (final : List UInt8) (password : String)
    (unanswered : client.answered = none) :
    { client with password }.verify final = client.verify final := by
  simp only [verify, unanswered]

end Scram.Client

/-- Whether a response can be sent depends on its length alone. -/
theorem ClientMessage.send_saslResponse (count : Nat) :
    (∃ fault, ∀ bytes : List UInt8, bytes.length = count →
      (saslResponse bytes).send #[] = .error fault #[]) ∨
    ∃ header, ∀ bytes : List UInt8, bytes.length = count →
      (saslResponse bytes).send #[] = .ok () (header ++ bytes).toArray := by
  have size (bytes : List UInt8) : (saslResponse bytes).size = 4 + bytes.length := by
    rw [size_saslResponse, length_boxed]
  rcases Nat.lt_or_ge Misfit.lengthMax (4 + count + 4) with long | fits
  · refine .inl ⟨.encode (.length (4 + count + 4)), ?_⟩
    rintro bytes rfl
    rw [← size] at long
    have refused : (saslResponse bytes).send #[] = _ := Frame.send_of_long long
    rw [refused, size]
  · refine .inr ⟨0x72 :: BigEndian.ofNat 4 (4 + count + 4) ++ BigEndian.ofNat 4 count, ?_⟩
    rintro bytes rfl
    have made := @saslResponse_bytes bytes (by rwa [size])
    rw [Frame.bytes, length_boxed, boxed] at made
    rw [send_empty_eq_ok, made]
    simp

/-- Whether an exchange accepts a response depends on its length alone. -/
theorem SaslSession.respond_length (session : SaslSession) (count : Nat) :
    (∃ fault given, ∀ bytes : List UInt8, bytes.length = count →
      respond bytes ⟨session, #[]⟩ = .error fault given) ∨
    ∃ header after, ∀ bytes : List UInt8, bytes.length = count →
      respond bytes ⟨session, #[]⟩ = .ok () ⟨after, (header ++ bytes).toArray⟩ := by
  by_cases due : session.phase = .challengeReceived
  · rcases ClientMessage.send_saslResponse count with ⟨fault, long⟩ | ⟨header, sent⟩
    · refine .inl ⟨fault, ⟨session, #[]⟩, ?_⟩
      intro bytes length
      simp only [respond, SaslSession.transmit, if_pos due, long bytes length]
    · refine .inr ⟨header, session.advance .finalResponseSent, ?_⟩
      intro bytes length
      simp only [respond, SaslSession.transmit, if_pos due, sent bytes length]
  · refine .inl ⟨.sequence session.phase .unchallenged, ⟨session.fail, #[]⟩, ?_⟩
    intro bytes length
    simp only [respond, SaslSession.transmit, if_neg due]

namespace Connection

variable {α β : Type} {frame : Frame} {call : Call} {settings : Settings} {random : List UInt8}
  {p q : String}

/-! ## Steps that do not look at the password -/

/-- The connection with another password and another client. -/
def disguise (connection : Connection) (password : String) (scram : Option Scram.Client) :
    Connection :=
  { connection with settings := { connection.settings with password := some password }, scram }

/-- What comes of a step, with another password and another client. -/
def disguised (password : String) (scram : Option Scram.Client) :
    EStateM.Result Fault Connection α → EStateM.Result Fault Connection α
  | .ok value after => .ok value (after.disguise password scram)
  | .error fault after => .error fault (after.disguise password scram)

/-- A step neither looks at the password and the client nor changes them. -/
def Blind (steps : Steps α) : Prop :=
  ∀ connection password scram,
    steps (connection.disguise password scram) = disguised password scram (steps connection)

theorem blind_pure (value : α) : Blind (pure value : Steps α) := by
  intro connection password scram
  rfl

theorem blind_throw (fault : Fault) : Blind (throw fault : Steps α) := by
  intro connection password scram
  rfl

theorem blind_ofExcept (result : Except Fault α) : Blind (ofExcept result) := by
  cases result with
  | ok value => exact blind_pure value
  | error fault => exact blind_throw fault

theorem blind_inSasl (exchange : Exchanges α) : Blind (inSasl exchange) := by
  intro connection password scram
  have same : (connection.disguise password scram).sasl = connection.sasl := rfl
  rw [inSasl, inSasl, same]
  cases exchange connection.sasl <;> rfl

theorem blind_send (message : ClientMessage) : Blind (send message) := by
  intro connection password scram
  have same : (connection.disguise password scram).outbox = connection.outbox := rfl
  rw [send, send, same]
  cases message.send connection.outbox <;> rfl

theorem blind_modify (change : Connection → Connection)
    (unread : ∀ connection password scram,
      change (connection.disguise password scram) = (change connection).disguise password scram) :
    Blind (modify change) := by
  intro connection password scram
  exact congrArg (EStateM.Result.ok ()) (unread connection password scram)

theorem Blind.bind {steps : Steps α} {next : α → Steps β} (first : Blind steps)
    (later : ∀ value, Blind (next value)) : Blind (steps >>= next) := by
  intro connection password scram
  have same := first connection password scram
  cases made : steps connection with
  | ok value middle =>
      rw [made] at same
      rw [bind_apply_ok same, bind_apply_ok made]
      exact later value middle password scram
  | error fault middle =>
      rw [made] at same
      rw [bind_apply_error same, bind_apply_error made]
      rfl

theorem blind_read {format : Format α} {next : α → Steps β}
    (later : ∀ message, Blind (next message)) :
    Blind (do let message ← ofExcept (frame.readAs format); next message) :=
  (blind_ofExcept (frame.readAs format)).bind later

theorem Blind.failing {steps : Steps α} (blind : Blind steps) : Blind (failing steps) := by
  intro connection password scram
  rw [Connection.failing, Connection.failing, blind connection password scram]
  cases steps connection <;> rfl

theorem blind_start : Blind start := by
  intro connection password scram
  rw [start, bind_apply_ok (get_apply _), bind_apply_ok (get_apply _)]
  -- The password is no parameter of the handshake.
  have same : handshake (connection.disguise password scram).settings =
    handshake connection.settings := rfl
  have phase : (connection.disguise password scram).phase = connection.phase := rfl
  rw [same, phase]
  split
  case isTrue =>
    have clearing : Blind (modify clear) := blind_modify _ fun _ _ _ => rfl
    have opening : Blind (do
        enter .waitingAuth
        pure (Action.write (← get).outbox.toList)) := by
      intro connection password scram
      rfl
    have sending := (blind_send (handshake connection.settings)).bind fun _ => opening
    exact (clearing.bind fun _ => sending) connection password scram
  case isFalse => exact blind_throw _ connection password scram

theorem blind_agree (message : ServerHandshake) : Blind (agree message) := by
  intro connection password scram
  rw [agree, bind_apply_ok (get_apply _), bind_apply_ok (get_apply _)]
  have same : (connection.disguise password scram).settings.version = connection.settings.version :=
    rfl
  rw [same]
  split <;> rfl

theorem blind_stray (message : Authentication) : Blind (stray message) := by
  refine (blind_inSasl _).bind fun _ => ?_
  exact blind_throw _

theorem blind_describeState (message : StateDataDescription) : Blind (describeState message) := by
  intro connection password scram
  have same : (connection.disguise password scram).cache = connection.cache := rfl
  rw [describeState, describeState, inCache, inCache, same]
  split
  case isTrue => rfl
  case isFalse =>
    cases Cache.resolve message.stream message.type connection.cache with
    | ok codec cache => rfl
    | error fault cache =>
        simp only
        split <;> rfl

theorem blind_stepWaitingReady (frame : Frame) : Blind (stepWaitingReady frame) := by
  unfold stepWaitingReady
  split
  case isTrue =>
    refine blind_read fun key => ?_
    exact blind_modify _ fun _ _ _ => rfl
  case isFalse =>
    split
    case isTrue =>
      refine blind_read fun parameter => ?_
      exact blind_modify _ fun _ _ _ => rfl
    case isFalse =>
      split
      case isTrue =>
        refine blind_read fun description => ?_
        exact blind_describeState description
      case isFalse =>
        split
        case isTrue =>
          refine blind_read fun readiness => ?_
          exact blind_modify _ fun _ _ _ => rfl
        case isFalse => exact blind_throw _

theorem blind_stepParameter (frame : Frame) : Blind (stepParameter frame) := by
  refine blind_read fun parameter => ?_
  refine (blind_modify _ fun _ _ _ => rfl).bind fun _ => ?_
  exact blind_pure _

/-! ## Steps that do -/

/-- The connection with its answer to a challenge, which a password has proved. -/
def proving (connection : Connection) (front : List UInt8) (password : String)
    (salt : List UInt8) (iterations : Nat) (signed : String) (scram : Option Scram.Client) :
    Connection :=
  let proof := Base64.encode (Scram.Client.proofWith password salt iterations signed)
  { connection.disguise password scram with outbox := (front ++ proof).toArray }

/-- What comes of a frame at two connections with different passwords: the same, or answers to the
same challenge that differ in the proof at their ends alone.  Of an answer, `told` is told. -/
inductive Alike (p q : String) (frame : Frame) (told : List UInt8 → α) :
    EStateM.Result Fault Connection α → EStateM.Result Fault Connection α → Prop where
  | same (outcome : EStateM.Result Fault Connection α) (one other : Option Scram.Client) :
      Alike p q frame told (disguised p one outcome) (disguised q other outcome)
  | proved {challenge front salt : List UInt8} {iterations : Nat} {signed : String}
      {connection : Connection}
      (read : frame.readAs Authentication.format = .ok (.challenge challenge))
      (phase : connection.phase = .saslInProgress) (one other : Option Scram.Client) :
      Alike p q frame told
        (.ok (told (front ++ Base64.encode (Scram.Client.proofWith p salt iterations signed)))
          (connection.proving front p salt iterations signed one))
        (.ok (told (front ++ Base64.encode (Scram.Client.proofWith q salt iterations signed)))
          (connection.proving front q salt iterations signed other))

theorem Blind.alike {steps : Steps α} (blind : Blind steps) (told : List UInt8 → α)
    (connection : Connection) (one other : Option Scram.Client) :
    Alike p q frame told (steps (connection.disguise p one))
      (steps (connection.disguise q other)) := by
  rw [blind connection p one, blind connection q other]
  exact .same _ one other

theorem alike_silent {steps : Steps Unit} {left right : Connection}
    (alike : Alike p q frame (fun _ => ()) (steps left) (steps right)) :
    Alike p q frame (fun _ => none) ((do steps; pure none : Steps (Option ParameterStatus)) left)
      ((do steps; pure none : Steps (Option ParameterStatus)) right) := by
  generalize ours : steps left = ourResult, theirs : steps right = theirResult at alike
  cases alike with
  | same outcome one other =>
      cases outcome with
      | ok _ after =>
          rw [bind_apply_ok ours, bind_apply_ok theirs]
          exact .same (.ok none after) one other
      | error fault after =>
          rw [bind_apply_error ours, bind_apply_error theirs]
          exact .same (.error fault after) one other
  | proved read phase one other =>
      rw [bind_apply_ok ours, bind_apply_ok theirs]
      exact .proved read phase one other

theorem alike_failing {steps : Steps α} {told : List UInt8 → α} {left right : Connection}
    (alike : Alike p q frame told (steps left) (steps right)) :
    Alike p q frame told (failing steps left) (failing steps right) := by
  rw [failing, failing]
  generalize steps left = ours, steps right = theirs at alike
  cases alike with
  | same outcome one other =>
      cases outcome with
      | ok action after => exact .same (.ok action after) one other
      | error fault after => exact .same (.error fault after.fail) one other
  | proved read phase one other => exact .proved read phase one other

/-- The client's first message is made from the user and the random bytes. -/
theorem beginSasl_disguise (offered : List String) (connection : Connection) (password : String)
    (scram : Option Scram.Client) :
    beginSasl offered (connection.disguise password scram) =
      if Scram.mechanism ∈ offered then
        match SaslSession.start Scram.mechanism
            (Utf8.encode (clientFor connection.settings connection.random "").first)
            ⟨connection.sasl, connection.outbox⟩ with
        | .ok _ ⟨sasl, outbox⟩ =>
            .ok () ({ connection with sasl, outbox, phase := .saslInProgress }.disguise password
              (some (clientFor connection.settings connection.random password)))
        | .error fault ⟨sasl, outbox⟩ =>
            .error fault ({ connection with sasl, outbox }.disguise password scram)
      else
        .error (.auth (.mechanisms offered)) (connection.disguise password scram) := by
  rw [beginSasl, bind_apply_ok (get_apply _)]
  split
  case isFalse => rfl
  case isTrue =>
    have first : (Scram.Client.ofRandom connection.settings.user password connection.random).first =
      (clientFor connection.settings connection.random "").first := rfl
    have secret : (connection.disguise password scram).settings.password = some password := rfl
    have user : (connection.disguise password scram).settings.user = connection.settings.user := rfl
    have random : (connection.disguise password scram).random = connection.random := rfl
    simp only [secret, user, random]
    rw [first]
    have channel : (⟨(connection.disguise password scram).sasl,
        (connection.disguise password scram).outbox⟩ : SaslSession.Channel) =
      ⟨connection.sasl, connection.outbox⟩ := rfl
    rw [transmit_bind, channel]
    cases SaslSession.start Scram.mechanism _ ⟨connection.sasl, connection.outbox⟩ <;> rfl

theorem alike_beginSasl (offered : List String) (connection : Connection)
    (one other : Option Scram.Client) :
    Alike p q frame (fun _ => ()) (beginSasl offered (connection.disguise p one))
      (beginSasl offered (connection.disguise q other)) := by
  rw [beginSasl_disguise, beginSasl_disguise]
  split
  case isFalse => exact .same (.error _ connection) one other
  case isTrue =>
    split
    case h_1 sasl outbox _ =>
      exact .same (.ok () { connection with sasl, outbox, phase := .saslInProgress }) _ _
    case h_2 fault sasl outbox _ =>
      exact .same (.error fault { connection with sasl, outbox }) one other

theorem stepExchange_challenge {client next : Scram.Client} {challenge : List UInt8}
    {reply : String} (answered : Scram.Client.answer challenge client = .ok reply next)
    (connection : Connection) :
    stepExchange client (.challenge challenge) connection =
      transmit (SaslSession.respond (Utf8.encode reply))
        { connection with scram := some next } := by
  rw [stepExchange, bind_apply_ok (inScram_eq_ok.2 ⟨next, answered, rfl⟩)]

theorem stepExchange_refused {client left : Scram.Client} {challenge : List UInt8}
    {fault : ScramFault} (refused : Scram.Client.answer challenge client = .error fault left)
    (connection : Connection) :
    stepExchange client (.challenge challenge) connection =
      .error (.auth (.scram fault)) { connection with scram := some left } := by
  rw [stepExchange, bind_apply_error (inScram_eq_error.2 ⟨fault, left, refused, rfl, rfl⟩)]

theorem alike_stepExchange {client : Scram.Client} (unanswered : client.answered = none)
    {event : SaslEvent}
    (read : ∀ challenge, event = .challenge challenge →
      frame.readAs Authentication.format = .ok (.challenge challenge))
    {connection : Connection} (phase : connection.phase = .saslInProgress)
    (silent : connection.outbox = #[]) (one other : Option Scram.Client) :
    Alike p q frame (fun _ => ())
      (stepExchange { client with password := p } event (connection.disguise p one))
      (stepExchange { client with password := q } event (connection.disguise q other)) := by
  cases event with
  | challenge challenge =>
      rcases client.answer_password challenge with
        ⟨fault, refused⟩ | ⟨front, salt, iterations, signed, answered⟩
      · rw [stepExchange_refused (refused p), stepExchange_refused (refused q)]
        exact .same (.error (.auth (.scram fault)) connection) _ _
      · rw [stepExchange_challenge (answered p), stepExchange_challenge (answered q)]
        have length (password : String) :
            (Utf8.encode front ++ Base64.encode
              (Scram.Client.proofWith password salt iterations signed)).length =
                (Utf8.encode front).length + 44 := by
          rw [List.length_append, Base64.length_encode, Scram.Client.length_proofWith]
        rw [Utf8.encode_append, Utf8.encode_append, Base64.encode_text, Base64.encode_text]
        rw [transmit, transmit]
        simp only [disguise, silent]
        rcases connection.sasl.respond_length ((Utf8.encode front).length + 44) with
          ⟨fault, given, refused⟩ | ⟨header, after, sent⟩
        · simp only [refused _ (length p), refused _ (length q)]
          exact .same
            (.error fault { connection with sasl := given.session, outbox := given.outbox }) _ _
        · simp only [sent _ (length p), sent _ (length q), ← List.append_assoc]
          exact @Alike.proved _ p q _ (fun _ => ()) _ _ _ _ _ { connection with sasl := after }
            (read challenge rfl) phase _ _
  | final final =>
      rw [stepExchange, stepExchange, client.verify_password final p unanswered,
        client.verify_password final q unanswered]
      cases client.verify final with
      | ok _ => exact .same (.ok () connection) one other
      | error fault => exact .same (.error (.auth (.scram fault)) connection) one other
  | authenticated =>
      exact .same (.ok () { connection with phase := .waitingReady }) none none

theorem clear_disguise (connection : Connection) (password : String)
    (scram : Option Scram.Client) :
    (connection.disguise password scram).clear = connection.clear.disguise password scram := rfl

theorem alike_stepWaitingAuth (connection : Connection) (one other : Option Scram.Client) :
    Alike p q frame (fun _ => ()) (stepWaitingAuth frame (connection.disguise p one))
      (stepWaitingAuth frame (connection.disguise q other)) := by
  rw [stepWaitingAuth, clear_bind, clear_bind, clear_disguise, clear_disguise]
  split
  case isTrue => exact (blind_read blind_agree).alike _ connection.clear one other
  case isFalse =>
    cases frame.readAs Authentication.format with
    | error fault => exact .same (.error fault connection.clear) one other
    | ok message =>
        cases message with
        | ok => exact .same (.ok () { connection.clear with phase := .waitingReady }) one other
        | mechanisms offered => exact alike_beginSasl offered connection.clear one other
        | challenge bytes =>
            exact (blind_stray (.challenge bytes)).alike _ connection.clear one other
        | final bytes => exact (blind_stray (.final bytes)).alike _ connection.clear one other

theorem alike_stepSaslInProgress {client : Scram.Client} (unanswered : client.answered = none)
    {connection : Connection} (phase : connection.phase = .saslInProgress) :
    Alike p q frame (fun _ => ())
      (stepSaslInProgress frame (connection.disguise p (some { client with password := p })))
      (stepSaslInProgress frame (connection.disguise q (some { client with password := q }))) := by
  cases read : frame.readAs Authentication.format with
  | error fault =>
      rw [stepSaslInProgress, clear_bind, clear_bind, clear_disguise, clear_disguise]
      split
      case isTrue =>
        rw [read]
        exact .same (.error fault connection.clear) _ _
      case isFalse => exact (blind_throw _).alike _ connection.clear _ _
  | ok message =>
      rw [stepSaslInProgress_of_readAs read rfl, stepSaslInProgress_of_readAs read rfl,
        inSasl_bind, inSasl_bind, clear_disguise, clear_disguise]
      have same (password : String) (scram : Option Scram.Client) :
          (connection.clear.disguise password scram).sasl = connection.sasl := rfl
      rw [same, same]
      cases received : SaslSession.receive message connection.sasl with
      | error fault sasl => exact .same (.error fault { connection.clear with sasl }) _ _
      | ok event sasl =>
          refine @alike_stepExchange _ p q _ unanswered _ ?_ { connection.clear with sasl } phase
            rfl _ _
          rintro challenge rfl
          cases SaslSession.receive_eq_ok.1 received
          exact read

/-- Two clients for passwords, neither of which has answered a challenge. -/
def Untried (p q : String) (one other : Option Scram.Client) : Prop :=
  ∃ client : Scram.Client, client.answered = none ∧
    one = some { client with password := p } ∧ other = some { client with password := q }

theorem alike_stepPhase (connection : Connection) (one other : Option Scram.Client)
    (untried : connection.phase = .saslInProgress → Untried p q one other) :
    Alike p q frame (fun _ => none) (stepPhase frame (connection.disguise p one))
      (stepPhase frame (connection.disguise q other)) := by
  generalize current : connection.phase = phase
  have ours : (connection.disguise p one).phase = phase := current
  have theirs : (connection.disguise q other).phase = phase := current
  cases phase with
  | initial =>
      rw [stepPhase_closed (.inl ours), stepPhase_closed (.inl theirs)]
      exact .same (.error _ connection) one other
  | waitingAuth =>
      rw [stepPhase_waitingAuth ours, stepPhase_waitingAuth theirs]
      exact alike_silent (alike_stepWaitingAuth connection one other)
  | saslInProgress =>
      rw [stepPhase_saslInProgress ours, stepPhase_saslInProgress theirs]
      obtain ⟨client, unanswered, rfl, rfl⟩ := untried current
      exact alike_silent (alike_stepSaslInProgress unanswered current)
  | waitingReady =>
      rw [stepPhase_waitingReady ours, stepPhase_waitingReady theirs]
      exact alike_silent ((blind_stepWaitingReady frame).alike _ connection one other)
  | ready =>
      rw [stepPhase_ready ours, stepPhase_ready theirs]
      split
      case isTrue =>
        have blind := (blind_stepParameter frame).bind fun changed => blind_pure (some changed)
        exact blind.alike _ connection one other
      case isFalse => exact .same (.error _ connection) one other
  | failed =>
      rw [stepPhase_closed (.inr ours), stepPhase_closed (.inr theirs)]
      exact .same (.error _ connection) one other

/-- The answer to a challenge is what has been written of it. -/
theorem next_proving {connection : Connection} (phase : connection.phase = .saslInProgress)
    (front : List UInt8) (password : String) (salt : List UInt8) (iterations : Nat)
    (signed : String) (scram : Option Scram.Client) :
    (connection.proving front password salt iterations signed scram).next none =
      .write (front ++ Base64.encode (Scram.Client.proofWith password salt iterations signed)) := by
  refine next_of_written phase rfl fun nothing => ?_
  have length := congrArg List.length nothing
  rw [List.length_append, Base64.length_encode, Scram.Client.length_proofWith] at length
  simp at length

theorem alike_next {steps : Steps (Option ParameterStatus)} {left right : Connection}
    (alike : Alike p q frame (fun _ => none) (steps left) (steps right)) :
    Alike p q frame .write
      ((do
        let changed ← steps
        let connection ← get
        pure (connection.next changed) : Steps Action) left)
      ((do
        let changed ← steps
        let connection ← get
        pure (connection.next changed) : Steps Action) right) := by
  generalize ours : steps left = ourResult, theirs : steps right = theirResult at alike
  cases alike with
  | same outcome one other =>
      cases outcome with
      | ok changed after =>
          rw [bind_apply_ok ours, bind_apply_ok theirs]
          exact .same (.ok (after.next changed) after) one other
      | error fault after =>
          rw [bind_apply_error ours, bind_apply_error theirs]
          exact .same (.error fault after) one other
  | @proved challenge front salt iterations signed connection read phase one other =>
      rw [bind_apply_ok ours, bind_apply_ok theirs, bind_apply_ok (get_apply _),
        bind_apply_ok (get_apply _), next_proving phase, next_proving phase]
      exact .proved read phase one other

theorem alike_step (connection : Connection) (one other : Option Scram.Client)
    (untried : connection.phase = .saslInProgress → Untried p q one other) :
    Alike p q frame .write (step frame (connection.disguise p one))
      (step frame (connection.disguise q other)) := by
  unfold step
  split
  case isTrue => exact (blind_read fun _ => blind_pure _).alike _ connection one other
  case isFalse =>
    split
    case isTrue =>
      exact (blind_read fun _ => (blind_throw _).failing).alike _ connection one other
    case isFalse =>
      exact alike_next (alike_failing (alike_stepPhase connection one other untried))

/-! ## Calls -/

/-- Two connections are alike but for their passwords and their clients. -/
def Near (p q : String) (left right : Connection) : Prop :=
  ∃ connection one other, left = disguise connection p one ∧ right = disguise connection q other

/-- What comes of a call at two connections with different passwords: the same, or answers to the
same challenge, which differ in the proof at their ends alone. -/
inductive Concur (p q : String) (call : Call) :
    Except Fault Action × Connection → Except Fault Action × Connection → Prop where
  | same (answer : Except Fault Action) (connection : Connection)
      (one other : Option Scram.Client) :
      Concur p q call (answer, connection.disguise p one) (answer, connection.disguise q other)
  | proved {challenge front salt : List UInt8} {iterations : Nat} {signed : String}
      (taken : ∀ action, accepted? call (.ok action) = some (.challenge challenge, action))
      (connection : Connection) (one other : Option Scram.Client) :
      Concur p q call
        (.ok (.write (front ++
            Base64.encode (Scram.Client.proofWith p salt iterations signed))),
          connection.proving front p salt iterations signed one)
        (.ok (.write (front ++
            Base64.encode (Scram.Client.proofWith q salt iterations signed))),
          connection.proving front q salt iterations signed other)

theorem concur_apply (connection : Connection) (one other : Option Scram.Client)
    (untried : connection.phase = .saslInProgress → Untried p q one other) (call : Call) :
    Concur p q call ((connection.disguise p one).apply call)
      ((connection.disguise q other).apply call) := by
  cases call with
  | start =>
      rw [apply, apply, blind_start connection p one, blind_start connection q other]
      cases start connection with
      | ok action after => exact .same (.ok action) after one other
      | error fault after => exact .same (.error fault) after one other
  | step frame =>
      have alike := @alike_step frame p q connection one other untried
      rw [apply_step, apply_step]
      generalize step frame (connection.disguise p one) = ours,
        step frame (connection.disguise q other) = theirs at alike
      cases alike with
      | same outcome one other =>
          cases outcome with
          | ok action after => exact .same (.ok action) after one other
          | error fault after => exact .same (.error fault) after one other
      | proved read _ one other => exact .proved (accepted?_authentication read) _ one other

/-- Two connections with different passwords have come equally far, and have answered no
challenge. -/
structure Twins (settings : Settings) (random : List UInt8) (p q : String)
    (left right : Connection) (history : List (Authentication × Action)) : Prop where
  near : Near p q left right
  left : Progress { settings with password := some p } random left history
  right : Progress { settings with password := some q } random right history
  unanswered : ∀ challenge action, (.challenge challenge, action) ∉ history

theorem twins_new (settings : Settings) (random : List UInt8) (cache : Cache) (p q : String) :
    Twins settings random p q (new { settings with password := some p } random cache)
      (new { settings with password := some q } random cache) [] where
  near := ⟨new settings random cache, none, none, rfl, rfl⟩
  left := progress_new _ random cache
  right := progress_new _ random cache
  unanswered := by simp

/-- While no challenge has been answered, the client is as it was at the outset. -/
theorem scram_of_progress {connection : Connection} {password : String}
    {history : List (Authentication × Action)}
    (progress : Progress { settings with password := some password } random connection history)
    (unanswered : ∀ challenge action, (.challenge challenge, action) ∉ history)
    (phase : connection.phase = .saslInProgress) :
    connection.scram = some (clientFor settings random password) := by
  simp only [Progress, phase] at progress
  generalize connection.scram = scram at progress ⊢
  cases progress with
  | opened opening =>
      obtain rfl := Option.some.inj opening.secret
      rfl
  | answered => simp at unanswered
  | verified => simp at unanswered

variable {left right : Connection} {history : List (Authentication × Action)}

theorem concur_of_twins (twins : Twins settings random p q left right history) (call : Call) :
    Concur p q call (left.apply call) (right.apply call) := by
  obtain ⟨connection, one, other, rfl, rfl⟩ := twins.near
  refine concur_apply connection one other ?_ call
  intro phase
  refine ⟨clientFor settings random "", rfl, ?_, ?_⟩
  · exact scram_of_progress twins.left twins.unanswered phase
  · exact scram_of_progress twins.right twins.unanswered phase

theorem Concur.near {ours theirs : Except Fault Action × Connection}
    (concur : Concur p q call ours theirs)
    (unanswered : ∀ challenge action, accepted? call ours.1 ≠ some (.challenge challenge, action)) :
    ours.1 = theirs.1 ∧ Near p q ours.2 theirs.2 := by
  cases concur with
  | same answer connection one other => exact ⟨rfl, connection, one, other, rfl, rfl⟩
  | proved taken => exact absurd (taken _) (unanswered _ _)

theorem twins_apply (twins : Twins settings random p q left right history) (call : Call)
    (unanswered : ∀ challenge action,
      accepted? call (left.apply call).1 ≠ some (.challenge challenge, action)) :
    (left.apply call).1 = (right.apply call).1 ∧
      Twins settings random p q (left.apply call).2 (right.apply call).2
        (history ++ (accepted? call (left.apply call).1).toList) := by
  obtain ⟨same, near⟩ := (concur_of_twins twins call).near unanswered
  refine ⟨same, near, progress_of_follows twins.left (follows_apply left call), ?_, ?_⟩
  · rw [same]
    exact progress_of_follows twins.right (follows_apply right call)
  · intro challenge action member
    rcases List.mem_append.1 member with earlier | now
    · exact twins.unanswered challenge action earlier
    · exact unanswered challenge action (Option.mem_toList.1 now)

theorem twins_run (twins : Twins settings random p q left right history) (calls : List Call)
    (unanswered : ∀ challenge action, (.challenge challenge, action) ∉ left.exchange calls) :
    (left.run calls).1 = (right.run calls).1 ∧
      Twins settings random p q (left.after calls) (right.after calls)
        (history ++ left.exchange calls) := by
  induction calls generalizing left right history with
  | nil => exact ⟨rfl, by simpa [exchange, run] using twins⟩
  | cons call calls ih =>
      rw [exchange_cons] at unanswered ⊢
      obtain ⟨same, next⟩ := twins_apply twins call fun challenge action taken =>
        unanswered challenge action (by simp [taken])
      obtain ⟨others, later⟩ := ih next fun challenge action member =>
        unanswered challenge action (List.mem_append_right _ member)
      rw [← List.append_assoc]
      exact ⟨congrArg₂ List.cons same others, later⟩

theorem Near.exists_disguise (near : Near p q left right) :
    ∃ scram, right = left.disguise q scram := by
  obtain ⟨connection, one, other, rfl, rfl⟩ := near
  exact ⟨other, rfl⟩

/-- Two connections that were told different passwords and are otherwise alike answer calls alike as
long as they have answered no challenge, and stay alike but for password and client.  Then they
answer the next call alike too and stay alike, or both of them answer the same challenge.  These
answers differ in their last 44 bytes alone, which are the proof in base64; the connections then
differ, but for password and client, in the answers that they have written. -/
theorem password_only_in_proof (settings : Settings) (random : List UInt8) (cache : Cache)
    (p q : String) (calls : List Call)
    (unanswered : ∀ challenge action, (.challenge challenge, action) ∉
      (new { settings with password := some p } random cache).exchange calls) :
    let left := new { settings with password := some p } random cache
    let right := new { settings with password := some q } random cache
    (left.run calls).1 = (right.run calls).1 ∧
    (∃ scram, right.after calls = (left.after calls).disguise q scram) ∧
    ∀ call,
      let ours := (left.after calls).apply call
      let theirs := (right.after calls).apply call
      (ours.1 = theirs.1 ∧ ∃ scram, theirs.2 = ours.2.disguise q scram) ∨
        ∃ challenge front salt iterations signed scram,
          let ourProof := Base64.encode (Scram.Client.proofWith p salt iterations signed)
          let theirProof := Base64.encode (Scram.Client.proofWith q salt iterations signed)
          ourProof.length = 44 ∧ theirProof.length = 44 ∧
          accepted? call ours.1 = some (.challenge challenge, .write (front ++ ourProof)) ∧
          accepted? call theirs.1 = some (.challenge challenge, .write (front ++ theirProof)) ∧
          ours.2.outbox = (front ++ ourProof).toArray ∧
          theirs.2 =
            { ours.2.disguise q scram with outbox := (front ++ theirProof).toArray } := by
  intro left right
  obtain ⟨same, twins⟩ := twins_run (twins_new settings random cache p q) calls unanswered
  refine ⟨same, twins.near.exists_disguise, ?_⟩
  intro call
  have concur := concur_of_twins twins call
  generalize (left.after calls).apply call = ours, (right.after calls).apply call = theirs at concur
  intro ours theirs
  cases concur with
  | same answer connection one other => exact .inl ⟨rfl, other, rfl⟩
  | @proved challenge front salt iterations signed taken connection one other =>
      refine .inr ⟨challenge, front, salt, iterations, signed, other, ?_, ?_, taken _, taken _,
        rfl, rfl⟩
      · rw [Base64.length_encode, Scram.Client.length_proofWith]
      · rw [Base64.length_encode, Scram.Client.length_proofWith]

theorem write_of_offerFrame :
    let connection := new guarded (List.replicate 24 0) .empty
    (∃ action, connection.exchange [.start, .step choiceFrame] =
      [(.mechanisms [Scram.mechanism], action)]) ∧
    ∃ bytes, ((connection.after [.start, .step choiceFrame]).apply (.step offerFrame)).1 =
      .ok (.write bytes) := by
  intro connection
  obtain ⟨first, answers⟩ := fits_provingFrames "pencil" rfl
  obtain ⟨action, opened, started⟩ :
      ∃ action opened, connection.apply .start = (.ok action, opened) :=
    ⟨_, _, apply_start_eq_ok.2 (start_eq_ok.2 ⟨rfl, _, handshake_guarded, rfl, rfl⟩)⟩
  obtain ⟨waiting, fresh, told, random⟩ := (opened_of_start started).1
  obtain ⟨bytes, middle, begun, phase, scram, expected⟩ : ∃ bytes middle,
      opened.apply (.step choiceFrame) = (.ok (.write bytes), middle) ∧
      middle.phase = .saslInProgress ∧ middle.scram = some sampleClient ∧
      middle.sasl.phase = .initialResponseSent := by
    have made := ClientMessage.saslInitialResponse_bytes first
    rw [← told, ← random] at made
    refine ⟨_, _, apply_step_eq_ok.2 (.begun waiting readAs_choiceFrame (by simp)
      (congrArg Settings.password told) (congrArg SaslSession.phase fresh) made), rfl, ?_, rfl⟩
    rw [told, random]
    rfl
  have short := answers offerFrame (by simp [provingFrames]) _ _ _ readAs_offerFrame
    answer_sampleClient
  have challenged := apply_step_eq_ok.2
    (.challenged phase readAs_offerFrame scram expected answer_sampleClient
      (ClientMessage.saslResponse_bytes short))
  constructor
  · rw [exchange_cons, started, exchange_cons, begun, accepted?_authentication readAs_choiceFrame]
    exact ⟨_, rfl⟩
  · rw [after_cons, started, after_cons, begun, after_nil]
    exact ⟨_, congrArg Prod.fst challenged⟩

/-- At the offer of the one mechanism the connections still say the same, and what they answer to
the challenge has one length and differs in the last 44 bytes at most. -/
theorem password_only_in_proof_sample :
    let left := new guarded (List.replicate 24 0) .empty
    let right := new { guarded with password := some "pen" } (List.replicate 24 0) .empty
    let calls := [.start, .step choiceFrame]
    (left.run calls).1 = (right.run calls).1 ∧ ∃ ours theirs,
      ((left.after calls).apply (.step offerFrame)).1 = .ok (.write ours) ∧
      ((right.after calls).apply (.step offerFrame)).1 = .ok (.write theirs) ∧
      ours.length = theirs.length ∧
      ours.take (ours.length - 44) = theirs.take (theirs.length - 44) := by
  intro left right calls
  obtain ⟨⟨action, begun⟩, bytes, answered⟩ := write_of_offerFrame
  have unanswered : ∀ challenge action, (.challenge challenge, action) ∉ left.exchange calls := by
    intro challenge action member
    rw [show left.exchange calls = _ from begun] at member
    simp at member
  obtain ⟨same, -, next⟩ := password_only_in_proof guarded (List.replicate 24 0) .empty
    "pencil" "pen" calls unanswered
  refine ⟨same, ?_⟩
  rcases next (.step offerFrame) with
    ⟨equal, -⟩ | ⟨_, front, salt, iterations, signed, _, long, wide, ours, theirs, -⟩
  · exact ⟨bytes, bytes, answered, equal.symm.trans answered, rfl, rfl⟩
  · refine ⟨_, _, eq_ok_of_accepted? ours, eq_ok_of_accepted? theirs, ?_, ?_⟩
    · simp [long, wide]
    · simp [long, wide]

end Connection
end SchemaWire
