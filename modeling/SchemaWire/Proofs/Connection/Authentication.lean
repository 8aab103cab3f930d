import SchemaWire.Proofs.Connection.Failure
import SchemaWire.Proofs.Connection.Language
import SchemaWire.Proofs.Scram
import SchemaWire.Proofs.Wire.Reading

/-!
# Mutual authentication

A connection that goes through an authentication exchange trusts the server only once the server
has proved that it knows the password.  The authentication messages accepted so far tell how far
the exchange has come, whatever else was sent in between and however many calls failed.
-/

namespace SchemaWire
namespace Connection

variable {settings : Settings} {random : List UInt8} {before after : Connection}
  {history : List (Authentication × Action)}

/-! ## The messages of an exchange -/

/-- The authentication message that a call has had accepted, and what it led to. -/
def accepted? : Call → Except Fault Action → Option (Authentication × Action)
  | .step frame, .ok action =>
      match frame.readAs Authentication.format with
      | .ok message => some (message, action)
      | .error _ => none
  | _, _ => none

/-- The authentication messages that a connection accepts in a run, in turn. -/
def exchange (connection : Connection) (calls : List Call) : List (Authentication × Action) :=
  (calls.zip (connection.run calls).1).filterMap fun entry => accepted? entry.1 entry.2

theorem exchange_cons (connection : Connection) (call : Call) (calls : List Call) :
    connection.exchange (call :: calls) =
      (accepted? call (connection.apply call).1).toList ++
        (connection.apply call).2.exchange calls := by
  rw [exchange, run, List.zip_cons_cons, List.filterMap_cons]
  cases accepted? call (connection.apply call).1 <;> rfl

theorem accepted?_error (call : Call) (fault : Fault) : accepted? call (.error fault) = none := by
  cases call <;> rfl

theorem eq_ok_of_accepted? {call : Call} {answer : Except Fault Action} {message : Authentication}
    {action : Action} (taken : accepted? call answer = some (message, action)) :
    answer = .ok action := by
  unfold accepted? at taken
  split at taken
  case h_1 =>
    split at taken
    case h_1 =>
      obtain ⟨-, rfl⟩ := Prod.mk.inj (Option.some.inj taken)
      rfl
    case h_2 => simp at taken
  case h_2 => simp at taken

theorem accepted?_authentication {frame : Frame} {message : Authentication}
    (read : frame.readAs Authentication.format = .ok message) (action : Action) :
    accepted? (.step frame) (.ok action) = some (message, action) := by
  rw [accepted?, read]

/-- A frame that is read in another format is no authentication message. -/
theorem accepted?_other {α : Type} {format : Format α} {frame : Frame} {message : α}
    (read : frame.readAs format = .ok message)
    (other : format.opcode ≠ Authentication.format.opcode) (action : Action) :
    accepted? (.step frame) (.ok action) = none := by
  rw [accepted?, Frame.readAs, if_neg (opcode_ne_of_readAs read other)]

/-! ## Progress of an exchange -/

/-- A choice of mechanisms has been answered with the client's first message. -/
structure Opening (settings : Settings) (random : List UInt8) (password : String)
    (initial : List UInt8) : Prop where
  secret : settings.password = some password
  sent : (ClientMessage.saslInitialResponse Scram.mechanism
    (Utf8.encode (clientFor settings random password).first)).bytes = .ok initial

/-- A challenge has been answered with the client's final message. -/
structure Answering (client next : Scram.Client) (challenge response : List UInt8)
    (reply : String) : Prop where
  answered : Scram.Client.answer challenge client = .ok reply next
  sent : (ClientMessage.saslResponse (Utf8.encode reply)).bytes = .ok response

/-- How far an exchange has come by the messages accepted so far. -/
inductive Stage (settings : Settings) (random : List UInt8) :
    SaslSession → Option Scram.Client → List (Authentication × Action) → Prop where
  | opened {session : SaslSession} {password : String} {offered : List String}
      {initial : List UInt8} (opening : Opening settings random password initial)
      (phase : session.phase = .initialResponseSent) (unproved : session.finalReceived = false) :
      Stage settings random session (some (clientFor settings random password))
        [(.mechanisms offered, .write initial)]
  | answered {session : SaslSession} {password reply : String} {offered : List String}
      {initial challenge response : List UInt8} {next : Scram.Client}
      (opening : Opening settings random password initial)
      (answering : Answering (clientFor settings random password) next challenge response reply)
      (phase : session.phase = .finalResponseSent) (unproved : session.finalReceived = false) :
      Stage settings random session (some next)
        [(.mechanisms offered, .write initial), (.challenge challenge, .write response)]
  | verified {session : SaslSession} {password reply : String} {offered : List String}
      {initial challenge response final : List UInt8} {next : Scram.Client}
      (opening : Opening settings random password initial)
      (answering : Answering (clientFor settings random password) next challenge response reply)
      (genuine : next.verify final = .ok ())
      (phase : session.phase = .finalResponseSent) (proved : session.finalReceived = true) :
      Stage settings random session (some next)
        [(.mechanisms offered, .write initial), (.challenge challenge, .write response),
          (.final final, .read)]

/-- The authentication messages accepted up to a phase of a connection. -/
def Progress (settings : Settings) (random : List UInt8) (connection : Connection)
    (history : List (Authentication × Action)) : Prop :=
  match connection.phase with
  | .initial | .waitingAuth =>
      history = [] ∧ connection.sasl = .new ∧ connection.settings = settings ∧
        connection.random = random
  | .saslInProgress => Stage settings random connection.sasl connection.scram history
  | .waitingReady | .ready =>
      history = [(.ok, .read)] ∨
        ∃ session client front, Stage settings random session client front ∧
          session.finalReceived = true ∧ history = front ++ [(.ok, .read)]
  | .failed => True

theorem progress_new (settings : Settings) (random : List UInt8) (cache : Cache) :
    Progress settings random (new settings random cache) [] :=
  ⟨rfl, rfl, rfl, rfl⟩

theorem progress_of_accepts {frame : Frame} {action : Action}
    (held : Progress settings random before history)
    (accepted : Accepts before frame action after) :
    Progress settings random after
      (history ++ (accepted? (.step frame) (.ok action)).toList) := by
  have unheard {α : Type} {format : Format α} {message : α} {action : Action}
      (read : frame.readAs format = .ok message)
      (other : format.opcode ≠ Authentication.format.opcode) :
      history ++ (accepted? (.step frame) (.ok action)).toList = history := by
    rw [accepted?_other read other, Option.toList_none, List.append_nil]
  cases accepted with
  | notice read => rwa [unheard read (by decide)]
  | agreed phase read =>
      rw [unheard read (by decide)]
      simpa [Progress, phase] using held
  | trusted phase read =>
      rw [accepted?_authentication read]
      simp only [Progress, phase] at held
      simp [Progress, held.1]
  | begun phase read known secret _ made =>
      rw [accepted?_authentication read]
      simp only [Progress, phase] at held
      obtain ⟨rfl, fresh, rfl, rfl⟩ := held
      exact .opened ⟨secret, made⟩ rfl (by simp [fresh, SaslSession.advance, SaslSession.new])
  | challenged phase read scram expected answered made =>
      rw [accepted?_authentication read]
      simp only [Progress, phase, scram] at held ⊢
      cases held with
      | opened opening _ unproved => exact .answered opening ⟨answered, made⟩ rfl unproved
      | answered _ _ later => simp [later] at expected
      | verified _ _ _ later => simp [later] at expected
  | verified phase read scram expected unproved genuine =>
      rw [accepted?_authentication read]
      simp only [Progress, phase, scram] at held ⊢
      cases held with
      | opened _ earlier => simp [earlier] at expected
      | answered opening answering => exact .verified opening answering genuine rfl rfl
      | verified _ _ _ _ proved => simp [proved] at unproved
  | authenticated phase read scram expected proved =>
      rw [accepted?_authentication read]
      simp only [Progress, phase, scram] at held ⊢
      exact .inr ⟨_, _, _, held, proved, rfl⟩
  | keyed phase read =>
      rw [unheard read (by decide)]
      simpa [Progress, phase] using held
  | told phase read =>
      rw [unheard read (by decide)]
      simpa [Progress, phase] using held
  | described phase read =>
      rw [unheard read (by decide)]
      simpa [Progress, phase] using held
  | readied phase read =>
      rw [unheard read (by decide)]
      simpa [Progress, phase] using held
  | changed phase read =>
      rw [unheard read (by decide)]
      simpa [Progress, phase] using held

theorem progress_of_follows {call : Call} {answer : Except Fault Action}
    (held : Progress settings random before history) (follows : Follows before call answer after) :
    Progress settings random after (history ++ (accepted? call answer).toList) := by
  cases follows with
  | opened phase =>
      simp only [Progress, phase] at held
      simpa [Progress, accepted?] using held
  | unopened phase =>
      simp only [Progress, phase] at held
      simpa [Progress, accepted?, clear, phase] using held
  | accepted accepted => exact progress_of_accepts held accepted
  | refused => simpa [accepted?_error] using held
  | givenUp => trivial

/-- Whatever the server sends, the messages accepted tell how far the exchange has come. -/
theorem progress_after (held : Progress settings random before history) (calls : List Call) :
    Progress settings random (before.after calls) (history ++ before.exchange calls) := by
  induction calls generalizing before history with
  | nil => simpa [exchange, run] using held
  | cons call calls ih =>
      rw [after_cons, exchange_cons, ← List.append_assoc]
      exact ih (progress_of_follows held (follows_apply before call))

/-! ## Trust -/

/-- What has been said when an exchange is through: the client's first message, a challenge that
goes on where its nonce ends, its answer, and the server's signature over all of this. -/
def Proved (settings : Settings) (random : List UInt8) (password : String)
    (initial challenge response final : List UInt8) : Prop :=
  let client := clientFor settings random password
  ∃ message nonce salt iterations,
    challenge = Utf8.encode message ∧ client.Offered message nonce salt iterations ∧
    let salted := Keyed.derive (Utf8.encode password) salt iterations
    let finalBare := Scram.Client.finalBare nonce
    let signed := client.firstBare ++ "," ++ message ++ "," ++ finalBare
    let proof := Base64.text (Scram.Client.proof salted signed)
    (ClientMessage.saslInitialResponse Scram.mechanism
        (Utf8.encode ("n,," ++ client.firstBare))).bytes = .ok initial ∧
      (ClientMessage.saslResponse (Utf8.encode (finalBare ++ ",p=" ++ proof))).bytes =
        .ok response ∧
      final = Utf8.encode "v=" ++ Base64.encode
        (Keyed.code (Keyed.code salted (Utf8.encode "Server Key")) (Utf8.encode signed))

theorem proved_of_verify {password reply : String} {next : Scram.Client}
    {initial challenge response final : List UInt8}
    (opening : Opening settings random password initial)
    (answering : Answering (clientFor settings random password) next challenge response reply)
    (genuine : next.verify final = .ok ()) :
    Proved settings random password initial challenge response final := by
  obtain ⟨message, nonce, salt, iterations, told, offered, rfl, rfl⟩ :=
    Scram.Client.answer_eq_ok.1 answering.answered
  obtain ⟨answered, held, rfl⟩ := Scram.Client.verify_eq_ok.1 genuine
  obtain rfl := Option.some.inj held
  exact ⟨message, nonce, salt, iterations, told, offered, opening.sent, answering.sent, rfl⟩

/-- A connection that began an exchange and got beyond it has been through the whole of it, and
through no other message of authentication: the choice of mechanisms, a challenge, the server's
proof, and its consent. -/
theorem mutual_authentication (settings : Settings) (random : List UInt8) (cache : Cache)
    (calls : List Call) (password : String) (secret : settings.password = some password)
    (begun : ∃ offered action,
      (.mechanisms offered, action) ∈ (new settings random cache).exchange calls)
    (trusting : ((new settings random cache).after calls).phase = .waitingReady ∨
      ((new settings random cache).after calls).phase = .ready) :
    ∃ offered initial challenge response final,
      (new settings random cache).exchange calls =
        [(.mechanisms offered, .write initial), (.challenge challenge, .write response),
          (.final final, .read), (.ok, .read)] ∧
      Proved settings random password initial challenge response final := by
  have progress := progress_after (progress_new settings random cache) calls
  rw [List.nil_append] at progress
  generalize (new settings random cache).exchange calls = history at begun progress
  have through : history = [(.ok, .read)] ∨
      ∃ session client front, Stage settings random session client front ∧
        session.finalReceived = true ∧ history = front ++ [(.ok, .read)] := by
    rcases trusting with phase | phase <;> simpa only [Progress, phase] using progress
  rcases through with rfl | ⟨session, client, front, stage, received, rfl⟩
  · simp at begun
  · cases stage with
    | opened _ _ unproved => simp [unproved] at received
    | answered _ _ _ unproved => simp [unproved] at received
    | verified opening answering genuine =>
        obtain rfl := Option.some.inj (opening.secret.symm.trans secret)
        exact ⟨_, _, _, _, _, rfl, proved_of_verify opening answering genuine⟩

/-! ## A server that knows the password -/

theorem readAs_final {bytes : List UInt8} (filled : bytes ≠ [])
    (fits : bytes.length ≤ Misfit.lengthMax) :
    (⟨0x52, BigEndian.ofNat 4 0xC ++ boxed bytes⟩ : Frame).readAs Authentication.format =
      .ok (.final bytes) := by
  refine Frame.readAs_eq_ok.2 ⟨rfl, Reads.TakesAll.run_whole (Reads.Takes.takesAll ?_)⟩
  refine (Reads.takes_word32 0xC).bind ?_
  rw [if_neg (by decide), if_neg (by decide), if_neg (by decide), if_pos rfl]
  exact (Reads.takes_byteArrayOrEmpty filled fits).then (Reads.takes_pure _)

theorem begun_of_finishes {action : Action} {opened : Connection} {choice : Frame}
    {frames : List Frame} {cache : Cache} {offered : List String}
    (started : (new settings random cache).apply .start = (.ok action, opened))
    (offers : choice.readAs Authentication.format = .ok (.mechanisms offered))
    (finishes : Finishes opened (choice :: frames)) :
    ∃ offered action, (.mechanisms offered, action) ∈
      (new settings random cache).exchange (.start :: (choice :: frames).map .step) := by
  obtain ⟨taken, after, accepted, -⟩ := finishes_cons.1 finishes
  refine ⟨offered, taken, ?_⟩
  rw [exchange_cons, started, List.map_cons, exchange_cons, apply_step_eq_ok.2 accepted,
    accepted?_authentication offers]
  simp

/-- A nonce that goes on after a client's nonce of zeros. -/
def longerNonce : List Char := "AAAAAAAAAAAAAAAAAAAAAAAAAAAAAAAAx".toList

/-- A server's first message with this nonce. -/
def sampleOffer : String := "r=AAAAAAAAAAAAAAAAAAAAAAAAAAAAAAAAx,s=AAAA,i=1"

/-- The client that the message is meant for. -/
def sampleClient : Scram.Client := clientFor guarded (List.replicate 24 0) "pencil"

theorem offered_sample : sampleClient.Offered sampleOffer longerNonce [0, 0, 0] 1 :=
  ⟨"AAAA".toList, by decide +kernel, by decide +kernel, by decide +kernel, by decide +kernel⟩

/-- What the client signs in answer, and with which key. -/
def sampleAnswer : Scram.Answered :=
  ⟨Keyed.derive (Utf8.encode sampleClient.password) [0, 0, 0] 1,
    sampleClient.signedText sampleOffer longerNonce⟩

/-- The client's final message. -/
def sampleReply : String :=
  Scram.Client.finalBare longerNonce ++ ",p=" ++
    Base64.text (Scram.Client.proof sampleAnswer.salted sampleAnswer.signed)

theorem answer_sampleClient :
    Scram.Client.answer (Utf8.encode sampleOffer) sampleClient =
      .ok sampleReply { sampleClient with answered := some sampleAnswer } :=
  Scram.Client.answer_eq_ok.2
    ⟨sampleOffer, longerNonce, [0, 0, 0], 1, rfl, offered_sample, rfl, rfl⟩

theorem length_sampleReply : (Utf8.encode sampleReply).length = 89 := by
  have short : (Utf8.encode (Scram.Client.finalBare longerNonce ++ ",p=")).length = 45 := by
    decide +kernel
  rw [sampleReply, Utf8.encode_append, Base64.encode_text, List.length_append,
    Base64.length_encode, Scram.Client.length_proof, short]

/-- The final message of a server that knows the password. -/
def sampleFinal : List UInt8 :=
  Scram.Client.finalBytes (Scram.Client.signature sampleAnswer.salted sampleAnswer.signed)

theorem length_sampleFinal : sampleFinal.length = 46 := by
  rw [sampleFinal, Scram.Client.finalBytes, List.length_append, Base64.length_encode,
    Scram.Client.length_signature]
  rfl

/-- The choice that a server gives of the one mechanism. -/
def choiceFrame : Frame :=
  ⟨0x52, BigEndian.ofNat 4 0xA ++ (BigEndian.ofNat 4 1 ++ boxed (Utf8.encode Scram.mechanism))⟩

/-- The message in which a server offers its nonce, its salt and its iteration count. -/
def offerFrame : Frame :=
  ⟨0x52, BigEndian.ofNat 4 0xB ++ boxed (Utf8.encode sampleOffer)⟩

/-- What such a server says, up to its readiness. -/
def provingFrames : List Frame :=
  [choiceFrame, offerFrame, ⟨0x52, BigEndian.ofNat 4 0xC ++ boxed sampleFinal⟩,
    ⟨0x52, [0, 0, 0, 0]⟩, ⟨0x5A, [0, 0, 73]⟩]

theorem readAs_choiceFrame :
    choiceFrame.readAs Authentication.format = .ok (.mechanisms [Scram.mechanism]) := by
  decide +kernel

theorem readAs_offerFrame :
    offerFrame.readAs Authentication.format = .ok (.challenge (Utf8.encode sampleOffer)) := by
  decide +kernel

theorem readAs_finalFrame :
    (⟨0x52, BigEndian.ofNat 4 0xC ++ boxed sampleFinal⟩ : Frame).readAs Authentication.format =
      .ok (.final sampleFinal) := by
  refine readAs_final ?_ ?_
  · intro empty
    have length := length_sampleFinal
    rw [empty] at length
    exact absurd length (by decide)
  · rw [length_sampleFinal]
    decide

theorem fits_provingFrames : Fits guarded (List.replicate 24 0) provingFrames := by
  intro password secret
  obtain rfl := Option.some.inj secret
  refine ⟨by decide +kernel, ?_⟩
  intro frame member bytes reply next read answered
  have others : (⟨0x52, [0, 0, 0, 0]⟩ : Frame).readAs Authentication.format = .ok .ok := rfl
  simp only [provingFrames, List.mem_cons, List.not_mem_nil, or_false] at member
  rcases member with rfl | rfl | rfl | rfl | rfl
  · simp [readAs_choiceFrame] at read
  · obtain rfl : Utf8.encode sampleOffer = bytes := by
      simpa [readAs_offerFrame] using read
    obtain ⟨rfl, -⟩ := EStateM.Result.ok.inj (answer_sampleClient.symm.trans answered)
    rw [ClientMessage.size_saslResponse, length_boxed, length_sampleReply]
    decide
  · simp [readAs_finalFrame] at read
  · simp [others] at read
  · simp [Frame.readAs, Authentication.format] at read

/-- A run in which a server proves that it knows the password, and the client is ready for it. -/
theorem mutual_authentication_sample :
    let connection := new guarded (List.replicate 24 0) .empty
    let calls := .start :: provingFrames.map .step
    (connection.after calls).phase = .ready ∧
      ∃ offered initial challenge response final,
        connection.exchange calls =
          [(.mechanisms offered, .write initial), (.challenge challenge, .write response),
            (.final final, .read), (.ok, .read)] ∧
        Proved guarded (List.replicate 24 0) "pencil" initial challenge response final := by
  intro connection calls
  have started : connection.apply .start = _ :=
    apply_start_eq_ok.2 (start_eq_ok.2 ⟨rfl, _, handshake_guarded, rfl, rfl⟩)
  have login : LogsIn guarded (List.replicate 24 0) (provingFrames.take 4) :=
    .proved readAs_choiceFrame (by simp) rfl readAs_offerFrame answer_sampleClient
      readAs_finalFrame (Scram.Client.verify_eq_ok.2 ⟨sampleAnswer, rfl, rfl⟩) rfl
  have session : Session .empty (provingFrames.drop 4) :=
    ⟨[], _, [], rfl, .nil, ⟨_, rfl⟩, by simp⟩
  obtain ⟨opened, unchanged⟩ := opened_of_start started
  have finishes : Finishes _ provingFrames :=
    finishes_of_login opened (fits_provingFrames.mono fun frame => List.mem_of_mem_take) login
      (unchanged ▸ session)
  have ready : (connection.after calls).phase = .ready := by
    rw [after_cons, started]
    exact finishes.2
  have begun := begun_of_finishes started readAs_choiceFrame finishes
  refine ⟨ready, ?_⟩
  exact mutual_authentication guarded (List.replicate 24 0) .empty calls "pencil" rfl begun
    (.inr ready)

end Connection
end SchemaWire
