import SchemaWire.Proofs.Connection.Step
import SchemaWire.Proofs.Message.Client

/-!
# Conversations that end in readiness

Which sequences of messages a connection accepts one by one until it is ready for commands.  A
conversation is a word of a simple grammar once the notices are left out of it; that the words of
the grammar are accepted is shown part by part, and that no others are by the phase in which the
connection stands.
-/

namespace SchemaWire
namespace Connection

variable {settings : Settings} {random : List UInt8} {cache : Cache}
  {before after : Connection} {frame : Frame} {frames : List Frame}

/-! ## Conversations -/

/-- A frame that holds a well-formed notice. -/
def isNotice (frame : Frame) : Bool :=
  (frame.readAs LogMessage.format).isOk

/-- The frames that are left when notices are taken out. -/
def withoutNotices (frames : List Frame) : List Frame :=
  frames.filter fun frame => !isNotice frame

/-- A server's handshake with the major version that was asked for. -/
def Agrees (settings : Settings) (frame : Frame) : Prop :=
  ∃ message, frame.readAs ServerHandshake.format = .ok message ∧
    message.version.major = settings.version.major

/-- A well-formed parameter status. -/
def Tells (frame : Frame) : Prop :=
  ∃ message, frame.readAs ParameterStatus.format = .ok message

/-- A well-formed readiness message. -/
def Readies (frame : Frame) : Prop :=
  ∃ message, frame.readAs ReadyForCommand.format = .ok message

/-- A server lets a client in, either at once or after an exchange in which it offers the client's
mechanism, the client answers its challenge, and its final message proves that it knows the
password. -/
inductive LogsIn (settings : Settings) (random : List UInt8) : List Frame → Prop where
  | trusted {consent : Frame} (consents : consent.readAs Authentication.format = .ok .ok) :
      LogsIn settings random [consent]
  | proved {choice challenge final consent : Frame} {offered : List String}
      {password reply : String} {bytes signature : List UInt8} {next : Scram.Client}
      (offers : choice.readAs Authentication.format = .ok (.mechanisms offered))
      (known : Scram.mechanism ∈ offered) (secret : settings.password = some password)
      (challenges : challenge.readAs Authentication.format = .ok (.challenge bytes))
      (answered : Scram.Client.answer bytes (clientFor settings random password) =
        .ok reply next)
      (proves : final.readAs Authentication.format = .ok (.final signature))
      (genuine : next.verify signature = .ok ())
      (consents : consent.readAs Authentication.format = .ok .ok) :
      LogsIn settings random [choice, challenge, final, consent]

/-- A server describes the session: its key, its parameters, and the type of the session state, in
any order and number.  A description of the state may change the cache in which those that come
later are resolved. -/
inductive Describing : Cache → List Frame → Prop where
  | nil {cache : Cache} : Describing cache []
  | key {cache : Cache} {frame : Frame} {frames : List Frame} {message : ServerKeyData}
      (read : frame.readAs ServerKeyData.format = .ok message) (rest : Describing cache frames) :
      Describing cache (frame :: frames)
  | parameter {cache : Cache} {frame : Frame} {frames : List Frame} (told : Tells frame)
      (rest : Describing cache frames) : Describing cache (frame :: frames)
  | state {cache grown : Cache} {frame : Frame} {frames : List Frame}
      {message : StateDataDescription} {codec : Option Codec}
      (read : frame.readAs StateDataDescription.format = .ok message)
      (noted : Describes cache message grown codec) (rest : Describing grown frames) :
      Describing cache (frame :: frames)

/-- What a server may say once it has let a client in: a description of the session, a readiness
message, and any changes of parameters. -/
def Session (cache : Cache) (frames : List Frame) : Prop :=
  ∃ description ready changes, frames = description ++ ready :: changes ∧
    Describing cache description ∧ Readies ready ∧ ∀ frame ∈ changes, Tells frame

/-- What a server may say to an opened connection, notices left out. -/
def Conversation (settings : Settings) (random : List UInt8) (cache : Cache)
    (frames : List Frame) : Prop :=
  ∃ handshakes login session, frames = handshakes ++ (login ++ session) ∧
    (∀ frame ∈ handshakes, Agrees settings frame) ∧ LogsIn settings random login ∧
      Session cache session

/-! ## Runs without a failure -/

/-- A connection accepts frames one after the other and is ready for commands after the last. -/
def Finishes (connection : Connection) (frames : List Frame) : Prop :=
  (∀ answer ∈ (connection.run (frames.map .step)).1, ∃ action, answer = .ok action) ∧
    (connection.after (frames.map .step)).phase = .ready

theorem finishes_nil : Finishes before [] ↔ before.phase = .ready := by
  simp [Finishes, run]

theorem finishes_cons :
    Finishes before (frame :: frames) ↔
      ∃ action after, Accepts before frame action after ∧ Finishes after frames := by
  rw [Finishes, List.map_cons, after_cons, run, List.forall_mem_cons]
  constructor
  · rintro ⟨⟨⟨action, succeeded⟩, others⟩, ready⟩
    exact ⟨action, _, apply_step_eq_ok.1 (Prod.ext succeeded rfl), others, ready⟩
  · rintro ⟨action, after, accepted, others, ready⟩
    rw [apply_step_eq_ok.2 accepted]
    exact ⟨⟨⟨action, rfl⟩, others⟩, ready⟩

theorem isNotice_iff :
    isNotice frame = true ↔ ∃ message, frame.readAs LogMessage.format = .ok message := by
  rw [isNotice]
  cases frame.readAs LogMessage.format <;> simp [Except.isOk, Except.toBool]

theorem not_isNotice_of_readAs {α : Type} {format : Format α} {message : α}
    (read : frame.readAs format = .ok message)
    (other : format.opcode ≠ LogMessage.format.opcode) : isNotice frame = false := by
  rw [isNotice, Frame.readAs, if_neg (opcode_ne_of_readAs read other)]
  rfl

/-- A notice changes nothing, and nothing but a notice is read as one. -/
theorem eq_of_accepts_notice {action : Action} (notice : isNotice frame = true)
    (accepted : Accepts before frame action after) : after = before := by
  have clash {α : Type} {format : Format α} {message : α}
      (read : frame.readAs format = .ok message)
      (other : format.opcode ≠ LogMessage.format.opcode) : after = before := by
    rw [not_isNotice_of_readAs read other] at notice
    exact absurd notice (by decide)
  cases accepted with
  | notice => rfl
  | agreed _ read => exact clash read (by decide)
  | trusted _ read => exact clash read (by decide)
  | begun _ read => exact clash read (by decide)
  | challenged _ read => exact clash read (by decide)
  | verified _ read => exact clash read (by decide)
  | authenticated _ read => exact clash read (by decide)
  | keyed _ read => exact clash read (by decide)
  | told _ read => exact clash read (by decide)
  | described _ read => exact clash read (by decide)
  | readied _ read => exact clash read (by decide)
  | changed _ read => exact clash read (by decide)

theorem finishes_notice_cons (notice : isNotice frame = true) :
    Finishes before (frame :: frames) ↔ Finishes before frames := by
  rw [finishes_cons]
  constructor
  · rintro ⟨action, after, accepted, rest⟩
    rwa [eq_of_accepts_notice notice accepted] at rest
  · intro rest
    obtain ⟨message, read⟩ := isNotice_iff.1 notice
    exact ⟨_, _, .notice read, rest⟩

/-- Notices may come at any time. -/
theorem finishes_withoutNotices :
    Finishes before frames ↔ Finishes before (withoutNotices frames) := by
  induction frames generalizing before with
  | nil => rfl
  | cons frame frames ih =>
      rw [withoutNotices, List.filter_cons]
      cases notice : isNotice frame with
      | true =>
          rw [if_neg (by simp), finishes_notice_cons notice, ih]
          rfl
      | false =>
          rw [if_pos (by simp), finishes_cons, finishes_cons]
          refine exists_congr fun action => exists_congr fun after => and_congr_right ?_
          intro accepted
          exact ih

/-! ## What conversations lead to -/

theorem finishes_of_changes (phase : before.phase = .ready)
    (changes : ∀ frame ∈ frames, Tells frame) : Finishes before frames := by
  induction frames generalizing before with
  | nil => exact finishes_nil.2 phase
  | cons frame frames ih =>
      obtain ⟨⟨message, read⟩, others⟩ := List.forall_mem_cons.1 changes
      exact finishes_cons.2 ⟨_, _, .changed phase read, ih phase others⟩

theorem finishes_of_session (phase : before.phase = .waitingReady)
    (session : Session before.cache frames) : Finishes before frames := by
  obtain ⟨description, ready, changes, rfl, describing, ⟨message, read⟩, told⟩ := session
  generalize cache_eq : before.cache = cache at describing
  induction describing generalizing before with
  | nil => exact finishes_cons.2 ⟨_, _, .readied phase read, finishes_of_changes rfl told⟩
  | key read _ ih => exact finishes_cons.2 ⟨_, _, .keyed phase read, ih phase cache_eq⟩
  | parameter told _ ih =>
      obtain ⟨message, read⟩ := told
      exact finishes_cons.2 ⟨_, _, .told phase read, ih phase cache_eq⟩
  | state read noted _ ih =>
      subst cache_eq
      exact finishes_cons.2 ⟨_, _, .described phase read noted, ih phase rfl⟩

/-- A connection that has been opened and has agreed to nothing but a version. -/
structure Opened (settings : Settings) (random : List UInt8) (connection : Connection) : Prop where
  phase : connection.phase = .waitingAuth
  fresh : connection.sasl = .new
  settings_eq : connection.settings = settings
  random_eq : connection.random = random

/-- What the client says in an exchange fits the length of a frame: its first message, and its
answers to the challenges among some frames. -/
def Fits (settings : Settings) (random : List UInt8) (frames : List Frame) : Prop :=
  ∀ password, settings.password = some password →
    let client := clientFor settings random password
    (ClientMessage.saslInitialResponse Scram.mechanism (Utf8.encode client.first)).size + 4 ≤
        Misfit.lengthMax ∧
      ∀ frame ∈ frames, ∀ bytes reply next,
        frame.readAs Authentication.format = .ok (.challenge bytes) →
          Scram.Client.answer bytes client = .ok reply next →
            (ClientMessage.saslResponse (Utf8.encode reply)).size + 4 ≤ Misfit.lengthMax

theorem Fits.mono {fewer more : List Frame} (fits : Fits settings random more)
    (among : ∀ frame ∈ fewer, frame ∈ more) : Fits settings random fewer := by
  intro password secret
  obtain ⟨first, answers⟩ := fits password secret
  refine ⟨first, ?_⟩
  intro frame member
  exact answers frame (among frame member)

theorem finishes_of_login {login session : List Frame} (opened : Opened settings random before)
    (fits : Fits settings random login) (entered : LogsIn settings random login)
    (described : Session before.cache session) : Finishes before (login ++ session) := by
  obtain ⟨phase, fresh, rfl, rfl⟩ := opened
  have new : before.sasl.phase = .notStarted ∧ before.sasl.finalReceived = false := by
    rw [fresh]
    exact ⟨rfl, rfl⟩
  cases entered with
  | trusted consents =>
      exact finishes_cons.2 ⟨_, _, .trusted phase consents, finishes_of_session rfl described⟩
  | @proved choice challenge final consent offered password reply bytes signature next
      offers known secret challenges answered proves genuine consents =>
      obtain ⟨first, answers⟩ := fits password secret
      have short := answers challenge (by simp) bytes reply next challenges answered
      have initial := ClientMessage.saslInitialResponse_bytes first
      have response := ClientMessage.saslResponse_bytes short
      refine finishes_cons.2 ⟨_, _, .begun phase offers known secret new.1 initial, ?_⟩
      refine finishes_cons.2 ⟨_, _, .challenged rfl challenges rfl rfl answered response, ?_⟩
      refine finishes_cons.2 ⟨_, _, .verified rfl proves rfl rfl new.2 genuine, ?_⟩
      refine finishes_cons.2 ⟨_, _, .authenticated rfl consents rfl rfl rfl, ?_⟩
      exact finishes_of_session rfl described

/-- A connection accepts every conversation. -/
theorem finishes_of_conversation (opened : Opened settings random before)
    (fits : Fits settings random frames)
    (conversation : Conversation settings random before.cache frames) :
    Finishes before frames := by
  obtain ⟨handshakes, login, session, rfl, agreed, entered, described⟩ := conversation
  have short : Fits settings random login := fits.mono fun frame member => by simp [member]
  clear fits
  induction handshakes generalizing before with
  | nil =>
      rw [List.nil_append]
      exact finishes_of_login opened short entered described
  | cons frame handshakes ih =>
      obtain ⟨⟨message, read, near⟩, others⟩ := List.forall_mem_cons.1 agreed
      rw [← opened.settings_eq] at near
      refine finishes_cons.2 ⟨_, _, .agreed opened.phase read near, ?_⟩
      exact ih ⟨opened.phase, opened.fresh, opened.settings_eq, opened.random_eq⟩ others described

/-! ## Nothing but conversations -/

section

variable {action : Action} (clean : isNotice frame = false)
  (accepted : Accepts before frame action after)

include clean accepted

theorem tells_of_accepts (phase : before.phase = .ready) : Tells frame ∧ after.phase = .ready := by
  cases accepted with
  | notice read => simp [isNotice_iff.2 ⟨_, read⟩] at clean
  | changed _ read => exact ⟨⟨_, read⟩, phase⟩
  | agreed other | trusted other | begun other | challenged other | verified other
  | authenticated other | keyed other | told other | described other | readied other =>
      exact absurd (phase.symm.trans other) (by decide)

theorem describes_of_accepts (phase : before.phase = .waitingReady) :
    (after.phase = .waitingReady ∧
        ∀ rest, Session after.cache rest → Session before.cache (frame :: rest)) ∨
      (after.phase = .ready ∧ Readies frame) := by
  cases accepted with
  | notice read => simp [isNotice_iff.2 ⟨_, read⟩] at clean
  | keyed _ read =>
      refine .inl ⟨phase, ?_⟩
      rintro rest ⟨description, ready, changes, rfl, describing, remaining⟩
      exact ⟨frame :: description, ready, changes, rfl, .key read describing, remaining⟩
  | told _ read =>
      refine .inl ⟨phase, ?_⟩
      rintro rest ⟨description, ready, changes, rfl, describing, remaining⟩
      exact ⟨frame :: description, ready, changes, rfl, .parameter ⟨_, read⟩ describing, remaining⟩
  | described _ read noted =>
      refine .inl ⟨phase, ?_⟩
      rintro rest ⟨description, ready, changes, rfl, describing, remaining⟩
      exact ⟨frame :: description, ready, changes, rfl, .state read noted describing, remaining⟩
  | readied _ read => exact .inr ⟨rfl, _, read⟩
  | agreed other | trusted other | begun other | challenged other | verified other
  | authenticated other | changed other =>
      exact absurd (phase.symm.trans other) (by decide)

end

theorem changes_of_finishes (phase : before.phase = .ready)
    (clean : ∀ frame ∈ frames, isNotice frame = false) (finishes : Finishes before frames) :
    ∀ frame ∈ frames, Tells frame := by
  induction frames generalizing before with
  | nil => simp
  | cons frame frames ih =>
      rw [List.forall_mem_cons] at clean ⊢
      obtain ⟨action, after, accepted, rest⟩ := finishes_cons.1 finishes
      obtain ⟨told, ready⟩ := tells_of_accepts clean.1 accepted phase
      exact ⟨told, ih ready clean.2 rest⟩

theorem session_of_finishes (phase : before.phase = .waitingReady)
    (clean : ∀ frame ∈ frames, isNotice frame = false) (finishes : Finishes before frames) :
    Session before.cache frames := by
  induction frames generalizing before with
  | nil => exact absurd (phase.symm.trans (finishes_nil.1 finishes)) (by decide)
  | cons frame frames ih =>
      rw [List.forall_mem_cons] at clean
      obtain ⟨action, after, accepted, rest⟩ := finishes_cons.1 finishes
      rcases describes_of_accepts clean.1 accepted phase with ⟨waiting, extend⟩ | ⟨ready, readies⟩
      · exact extend frames (ih waiting clean.2 rest)
      · exact ⟨[], frame, frames, rfl, .nil, readies, changes_of_finishes ready clean.2 rest⟩

/-- Where an exchange stands: what the client awaits, and whether the server has proved itself. -/
structure Exchanging (connection : Connection) (awaited : SaslPhase) (received : Bool)
    (client : Scram.Client) (cache : Cache) : Prop where
  phase : connection.phase = .saslInProgress
  awaited_eq : connection.sasl.phase = awaited
  received_eq : connection.sasl.finalReceived = received
  scram : connection.scram = some client
  cache_eq : connection.cache = cache

section

variable {action : Action} {client : Scram.Client} (clean : isNotice frame = false)
  (accepted : Accepts before frame action after)

include clean accepted

theorem answers_of_accepts
    (stands : Exchanging before .initialResponseSent false client cache) :
    ∃ bytes reply next, frame.readAs Authentication.format = .ok (.challenge bytes) ∧
      Scram.Client.answer bytes client = .ok reply next ∧
        Exchanging after .finalResponseSent false next cache := by
  obtain ⟨phase, awaited, received, scram, same⟩ := stands
  cases accepted with
  | notice read => simp [isNotice_iff.2 ⟨_, read⟩] at clean
  | challenged _ read known _ answered =>
      obtain rfl := Option.some.inj (known.symm.trans scram)
      exact ⟨_, _, _, read, answered, phase, rfl, received, rfl, same⟩
  | verified _ _ _ expected | authenticated _ _ _ expected =>
      exact absurd (awaited.symm.trans expected) (by decide)
  | agreed other | trusted other | begun other | keyed other | told other | described other
  | readied other | changed other => exact absurd (phase.symm.trans other) (by decide)

theorem proves_of_accepts (stands : Exchanging before .finalResponseSent false client cache) :
    ∃ signature, frame.readAs Authentication.format = .ok (.final signature) ∧
      client.verify signature = .ok () ∧
        Exchanging after .finalResponseSent true client cache := by
  obtain ⟨phase, awaited, received, scram, same⟩ := stands
  cases accepted with
  | notice read => simp [isNotice_iff.2 ⟨_, read⟩] at clean
  | verified _ read known _ _ genuine =>
      obtain rfl := Option.some.inj (known.symm.trans scram)
      exact ⟨_, read, genuine, phase, rfl, rfl, scram, same⟩
  | challenged _ _ _ expected => exact absurd (awaited.symm.trans expected) (by decide)
  | authenticated _ _ _ _ proved => exact absurd (received.symm.trans proved) (by decide)
  | agreed other | trusted other | begun other | keyed other | told other | described other
  | readied other | changed other => exact absurd (phase.symm.trans other) (by decide)

theorem consents_of_accepts (stands : Exchanging before .finalResponseSent true client cache) :
    frame.readAs Authentication.format = .ok .ok ∧ after.phase = .waitingReady ∧
      after.cache = cache := by
  obtain ⟨phase, awaited, received, scram, same⟩ := stands
  cases accepted with
  | notice read => simp [isNotice_iff.2 ⟨_, read⟩] at clean
  | authenticated _ read => exact ⟨read, rfl, same⟩
  | challenged _ _ _ expected => exact absurd (awaited.symm.trans expected) (by decide)
  | verified _ _ _ _ unproved => exact absurd (received.symm.trans unproved) (by decide)
  | agreed other | trusted other | begun other | keyed other | told other | described other
  | readied other | changed other => exact absurd (phase.symm.trans other) (by decide)

end

theorem Exchanging.not_finishes_nil {awaited : SaslPhase} {received : Bool}
    {client : Scram.Client} (stands : Exchanging before awaited received client cache) :
    ¬ Finishes before [] := by
  rw [finishes_nil, stands.phase]
  decide

/-- An exchange goes on with a challenge, the server's proof, and its consent. -/
theorem exchange_of_finishes {client : Scram.Client}
    (stands : Exchanging before .initialResponseSent false client cache)
    (clean : ∀ frame ∈ frames, isNotice frame = false) (finishes : Finishes before frames) :
    ∃ challenge final consent session, frames = challenge :: final :: consent :: session ∧
      Session cache session ∧
      ∃ bytes reply next signature,
        challenge.readAs Authentication.format = .ok (.challenge bytes) ∧
        Scram.Client.answer bytes client = .ok reply next ∧
        final.readAs Authentication.format = .ok (.final signature) ∧
        next.verify signature = .ok () ∧
        consent.readAs Authentication.format = .ok .ok := by
  match frames with
  | [] => exact absurd finishes stands.not_finishes_nil
  | challenge :: frames =>
    rw [List.forall_mem_cons] at clean
    obtain ⟨_, _, accepted, finishes⟩ := finishes_cons.1 finishes
    obtain ⟨bytes, reply, next, challenges, answered, stands⟩ :=
      answers_of_accepts clean.1 accepted stands
    match frames with
    | [] => exact absurd finishes stands.not_finishes_nil
    | final :: frames =>
      rw [List.forall_mem_cons] at clean
      obtain ⟨_, _, accepted, finishes⟩ := finishes_cons.1 finishes
      obtain ⟨signature, proves, genuine, stands⟩ := proves_of_accepts clean.2.1 accepted stands
      match frames with
      | [] => exact absurd finishes stands.not_finishes_nil
      | consent :: session =>
        rw [List.forall_mem_cons] at clean
        obtain ⟨_, _, accepted, finishes⟩ := finishes_cons.1 finishes
        obtain ⟨consents, waiting, same⟩ := consents_of_accepts clean.2.2.1 accepted stands
        have described := session_of_finishes waiting clean.2.2.2 finishes
        rw [same] at described
        exact ⟨challenge, final, consent, session, rfl, described, bytes, reply, next, signature,
          challenges, answered, proves, genuine, consents⟩

/-- A connection accepts nothing but conversations. -/
theorem conversation_of_finishes (opened : Opened settings random before)
    (clean : ∀ frame ∈ frames, isNotice frame = false) (finishes : Finishes before frames) :
    Conversation settings random before.cache frames := by
  induction frames generalizing before with
  | nil => exact absurd (opened.phase.symm.trans (finishes_nil.1 finishes)) (by decide)
  | cons frame frames ih =>
      rw [List.forall_mem_cons] at clean
      obtain ⟨action, after, accepted, rest⟩ := finishes_cons.1 finishes
      obtain ⟨phase, fresh, rfl, rfl⟩ := opened
      cases accepted with
      | notice read => simp [isNotice_iff.2 ⟨_, read⟩] at clean
      | agreed _ read near =>
          obtain ⟨handshakes, login, session, rfl, agreed, others⟩ :=
            ih (by exact ⟨phase, fresh, rfl, rfl⟩) clean.2 rest
          refine ⟨frame :: handshakes, login, session, rfl, ?_, others⟩
          exact List.forall_mem_cons.2 ⟨⟨_, read, near⟩, agreed⟩
      | trusted _ read =>
          have described := session_of_finishes (by rfl) clean.2 rest
          exact ⟨[], [frame], frames, rfl, by simp, .trusted read, described⟩
      | begun _ read known secret =>
          have unproved : before.sasl.finalReceived = false := by
            rw [fresh]
            rfl
          obtain ⟨challenge, final, consent, session, rfl, described, bytes, reply, next,
            signature, challenges, answered, proves, genuine, consents⟩ :=
            exchange_of_finishes (by exact ⟨rfl, rfl, unproved, rfl, rfl⟩) clean.2 rest
          refine ⟨[], [frame, challenge, final, consent], session, rfl, by simp, ?_, described⟩
          exact .proved read known secret challenges answered proves genuine consents
      | challenged other | verified other | authenticated other | keyed other | told other
      | described other | readied other | changed other =>
          exact absurd (phase.symm.trans other) (by decide)

/-! ## The language of a connection -/

theorem opened_of_start {action : Action} {opened : Connection}
    (started : (new settings random cache).apply .start = (.ok action, opened)) :
    Opened settings random opened ∧ opened.cache = cache := by
  obtain ⟨-, bytes, -, -, rfl⟩ := start_eq_ok.1 (apply_start_eq_ok.1 started)
  exact ⟨⟨rfl, rfl, rfl, rfl⟩, rfl⟩

theorem isNotice_of_mem_withoutNotices (remains : frame ∈ withoutNotices frames) :
    isNotice frame = false := by
  simpa using (List.mem_filter.1 remains).2

/-- An opened connection accepts frames one by one until it is ready for commands if and only if
they are a conversation with notices anywhere in it. -/
theorem finishes_iff_conversation (settings : Settings) (random : List UInt8) (cache : Cache)
    (action : Action) (opened : Connection)
    (started : (new settings random cache).apply .start = (.ok action, opened))
    (frames : List Frame) (fits : Fits settings random frames) :
    Finishes opened frames ↔ Conversation settings random cache (withoutNotices frames) := by
  obtain ⟨fresh, rfl⟩ := opened_of_start started
  rw [finishes_withoutNotices]
  constructor
  · refine conversation_of_finishes fresh ?_
    intro frame remains
    exact isNotice_of_mem_withoutNotices remains
  · refine finishes_of_conversation fresh (fits.mono ?_)
    intro frame remains
    exact (List.mem_filter.1 remains).1

/-- Settings with a password and nothing else. -/
def guarded : Settings := { password := some "pencil" }

theorem handshake_guarded :
    (handshake guarded).bytes = .ok [86, 0, 0, 0, 30, 0, 1, 0, 0, 0, 1, 0, 0, 0, 4, 117, 115, 101,
      114, 0, 0, 0, 6, 101, 100, 103, 101, 100, 98, 0, 0] := by
  rfl

/-- A server that lets the client in at once, with a notice on the way. -/
def plainFrames : List Frame :=
  [⟨0x52, [0, 0, 0, 0]⟩, ⟨0x4C, [80, 0, 0, 0, 3, 0, 0, 0, 0, 0, 0]⟩, ⟨0x5A, [0, 0, 73]⟩,
    ⟨0x53, [0, 0, 0, 1, 110, 0, 0, 0, 1, 118]⟩]

theorem finishes_iff_conversation_plain :
    ∃ action opened,
      (new guarded (List.replicate 24 0) .empty).apply .start = (.ok action, opened) ∧
      Fits guarded (List.replicate 24 0) plainFrames ∧ Finishes opened plainFrames ∧
        (Finishes opened plainFrames ↔
          Conversation guarded (List.replicate 24 0) .empty (withoutNotices plainFrames)) := by
  have fits : Fits guarded (List.replicate 24 0) plainFrames := by
    intro password secret
    obtain rfl := Option.some.inj secret
    refine ⟨by decide, ?_⟩
    have trusted : (⟨0x52, [0, 0, 0, 0]⟩ : Frame).readAs Authentication.format = .ok .ok := rfl
    intro frame member bytes reply next read
    simp only [plainFrames, List.mem_cons, List.not_mem_nil, or_false] at member
    rcases member with rfl | rfl | rfl | rfl
    · simp [trusted] at read
    · simp [Frame.readAs, Authentication.format] at read
    · simp [Frame.readAs, Authentication.format] at read
    · simp [Frame.readAs, Authentication.format] at read
  let before := new guarded (List.replicate 24 0) .empty
  have started : before.apply .start = _ :=
    apply_start_eq_ok.2 (start_eq_ok.2 ⟨rfl, _, handshake_guarded, rfl, rfl⟩)
  refine ⟨_, _, started, fits, ?_,
    finishes_iff_conversation guarded (List.replicate 24 0) .empty _ _ started _ fits⟩
  refine finishes_cons.2 ⟨_, _, .trusted rfl rfl, finishes_cons.2 ⟨_, _, .notice rfl, ?_⟩⟩
  refine finishes_cons.2 ⟨_, _, .readied rfl rfl, finishes_cons.2 ⟨_, _, .changed rfl rfl, ?_⟩⟩
  exact finishes_nil.2 rfl

end Connection
end SchemaWire
