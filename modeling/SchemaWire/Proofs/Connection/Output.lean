import SchemaWire.Proofs.Connection.Authentication
import SchemaWire.Proofs.Connection.Coupling
import SchemaWire.Proofs.Message.Exchange

/-!
# What a connection sends

However often a connection is opened and whatever it is given, it hands out the handshake, its first
message of an authentication exchange and its answer to a challenge, each at most once and in this
order.  Each comes in a frame of its own, and the handshake tells what the settings say.
-/

namespace SchemaWire
namespace Connection

variable {settings : Settings} {before after : Connection} {frame : Frame} {action : Action}
  {call : Call} {answer : Except Fault Action} {messages : List ClientMessage}

/-! ## The messages of an opening -/

/-- The bytes that an answer hands out to be sent. -/
def written? : Except Fault Action → Option (List UInt8)
  | .ok (.write bytes) => some bytes
  | _ => none

/-- The bytes that answers hand out, in turn. -/
def written (answers : List (Except Fault Action)) : List (List UInt8) :=
  answers.filterMap written?

theorem written_cons (answer : Except Fault Action) (answers : List (Except Fault Action)) :
    written (answer :: answers) = (written? answer).toList ++ written answers := by
  rw [written, List.filterMap_cons]
  cases written? answer <;> rfl

/-- All that a client may have to say before it is ready for commands. -/
def speech (settings : Settings) (first last : List UInt8) : List ClientMessage :=
  [handshake settings, .saslInitialResponse Scram.mechanism first, .saslResponse last]

/-- The messages that a connection has sent when it is in its phase. -/
def Said (settings : Settings) (connection : Connection) (messages : List ClientMessage) : Prop :=
  match connection.phase with
  | .initial => messages = []
  | .waitingAuth => messages = [handshake settings]
  | .saslInProgress =>
      ∃ first last, messages =
        (speech settings first last).take
          (if connection.sasl.phase = .initialResponseSent then 2 else 3)
  | .waitingReady | .ready | .failed => ∃ first last, messages <+: speech settings first last

theorem Said.begins_speech (said : Said settings before messages) :
    ∃ first last, messages <+: speech settings first last := by
  cases phase : before.phase with
  | initial =>
      simp only [Said, phase] at said
      rw [said]
      exact ⟨[], [], List.nil_prefix⟩
  | waitingAuth =>
      simp only [Said, phase] at said
      rw [said]
      exact ⟨[], [], ⟨_, rfl⟩⟩
  | saslInProgress =>
      simp only [Said, phase] at said
      obtain ⟨first, last, rfl⟩ := said
      exact ⟨first, last, List.take_prefix _ _⟩
  | waitingReady | ready | failed => simpa only [Said, phase] using said

/-- A message spells the bytes that are handed out with it. -/
def Spells (message : ClientMessage) (bytes : List UInt8) : Prop :=
  message.bytes = .ok bytes

/-! ## One call -/

/-- After a call one more message may have been sent, which spells what was handed out. -/
def Adds (settings : Settings) (messages : List ClientMessage) (answer : Except Fault Action)
    (after : Connection) : Prop :=
  ∃ more, Said settings after (messages ++ more) ∧
    List.Forall₂ Spells more (written? answer).toList

theorem adds_nothing (said : Said settings after messages) (silent : written? answer = none) :
    Adds settings messages answer after := by
  refine ⟨[], ?_, ?_⟩
  · rwa [List.append_nil]
  · rw [silent]
    exact .nil

theorem adds_of_accepts (accepted : Accepts before frame action after)
    (said : Said settings before messages) : Adds settings messages (.ok action) after := by
  cases accepted with
  | notice => exact adds_nothing said rfl
  | agreed phase | keyed phase | told phase | described phase | changed phase =>
      refine adds_nothing ?_ rfl
      simpa only [Said, phase] using said
  | trusted | authenticated | readied => exact adds_nothing said.begins_speech rfl
  | @begun offered password bytes phase read known secret fresh made =>
      simp only [Said, phase] at said
      subst said
      exact ⟨[_], ⟨_, [], rfl⟩, .cons made .nil⟩
  | @challenged bytes reply client next answer phase read scram expected answered made =>
      simp only [Said, phase, expected] at said
      obtain ⟨first, last, rfl⟩ := said
      refine ⟨[_], ?_, .cons made .nil⟩
      simp only [Said, phase]
      exact ⟨first, _, rfl⟩
  | verified phase read scram expected =>
      refine adds_nothing ?_ rfl
      simpa [Said, phase, expected, SaslSession.advance] using said

theorem adds_of_follows (follows : Follows before call answer after)
    (unchanged : before.settings = settings) (said : Said settings before messages) :
    Adds settings messages answer after := by
  cases follows with
  | opened phase sent =>
      simp only [Said, phase] at said
      subst said unchanged
      exact ⟨[_], rfl, .cons sent .nil⟩
  | unopened phase =>
      refine adds_nothing ?_ rfl
      simpa only [Said, clear, phase] using said
  | accepted accepted => exact adds_of_accepts accepted said
  | refused => exact adds_nothing said rfl
  | givenUp => exact adds_nothing said.begins_speech rfl

/-! ## Calls in turn -/

theorem said_after (held : Coupled settings before) (said : Said settings before messages)
    (calls : List Call) :
    ∃ more, Said settings (before.after calls) (messages ++ more) ∧
      List.Forall₂ Spells more (written (before.run calls).1) := by
  induction calls generalizing before messages with
  | nil => exact ⟨[], by simpa using said, .nil⟩
  | cons call calls ih =>
      obtain ⟨one, said, spelled⟩ :=
        adds_of_follows (follows_apply before call) held.unchanged said
      obtain ⟨more, said, others⟩ := ih (coupled_apply held call).1 said
      refine ⟨one ++ more, by rwa [← List.append_assoc], ?_⟩
      rw [run, written_cons]
      exact List.rel_append spelled others

/-- Bytes are a frame that carries a message, and come out of every inbox that admits it as this
frame, with nothing left. -/
def Delivers (message : ClientMessage) (bytes : List UInt8) : Prop :=
  ∃ frame, message.Carried frame ∧ bytes = frame.bytes ∧
    ∀ limit, frame.payload.length + 4 ≤ limit →
      (Inbox.empty limit).run [.extend bytes, .next, .next] =
        ([.ok (some frame), .ok none], Inbox.empty limit)

theorem delivers_of_spells {message : ClientMessage} {bytes : List UInt8}
    (spells : Spells message bytes) : Delivers message bytes := by
  obtain ⟨counted, fits, rfl⟩ := ClientMessage.bytes_eq_ok.1 spells
  refine ⟨message.frame, ClientMessage.carried_frame counted fits, rfl, ?_⟩
  intro limit within
  have admitted : ∀ frame ∈ [message.frame], Inbox.Admits limit frame := by
    intro frame member
    obtain rfl := List.mem_singleton.1 member
    refine ⟨?_, within⟩
    rwa [message.length_payload]
  have received := Inbox.run_frames [message.frame] admitted
  rw [List.flatMap_singleton] at received
  exact received

theorem optional_eq_map (name : String) (value : Option String) :
    Settings.optional name value = value.toList.map (NamedText.mk name) := by
  cases value <;> rfl

/-- Whatever is called, the bytes handed out are those of a handshake, a first message of an
exchange and an answer, in this order and as far as they go; each is one frame with nothing after
it; and the handshake, field by field, is the version asked for, the user, what else is set, the
further parameters, and no extension. -/
theorem output_is_opening (settings : Settings) (random : List UInt8) (cache : Cache)
    (calls : List Call) :
    let output := written ((new settings random cache).run calls).1
    (∃ first last messages, messages <+: [
        .handshake settings.version settings.parameters [],
        .saslInitialResponse Scram.mechanism first, .saslResponse last] ∧
      List.Forall₂ Delivers messages output) ∧
    ∀ bytes, output.head? = some bytes → ∃ payload, bytes = Frame.bytes ⟨0x56, payload⟩ ∧
      (Reads.whole (Shape.readAll [.word16, .word16, .named, .extensions])).run payload =
        .ok [.word16 settings.version.major, .word16 settings.version.minor,
          .named (⟨"user", settings.user⟩ :: settings.database.toList.map (NamedText.mk "database")
            ++ settings.branch.toList.map (NamedText.mk "branch")
            ++ settings.secretKey.toList.map (NamedText.mk "secret_key") ++ settings.extra),
          .extensions []] := by
  intro output
  obtain ⟨messages, said, spelled⟩ : ∃ messages,
      Said settings ((new settings random cache).after calls) messages ∧
        List.Forall₂ Spells messages output :=
    @said_after settings _ [] (coupled_new settings random cache) rfl calls
  obtain ⟨first, last, begins⟩ := said.begins_speech
  have delivered := spelled.imp fun _ _ => delivers_of_spells
  refine ⟨⟨first, last, messages, begins, delivered⟩, ?_⟩
  intro bytes leads
  obtain ⟨others, split⟩ := List.head?_eq_some_iff.1 leads
  rw [split] at delivered
  obtain ⟨message, remaining, ⟨frame, carried, made, -⟩, -, rfl⟩ :=
    List.forall₂_cons_right_iff.1 delivered
  obtain rfl : message = handshake settings := (List.cons_prefix_cons.1 begins).1
  refine ⟨frame.payload, ?_, ?_⟩
  · rw [made, ← show frame.opcode = 0x56 from carried.opcode]
  · simp only [← optional_eq_map]
    exact carried.read

/-- A notice and a second opening come between the handshake and the choice of a mechanism, and only
two frames are handed out. -/
theorem output_is_opening_guarded :
    let settings : Settings := { guarded with database := some "d", extra := [⟨"k", "v"⟩] }
    let notice : Frame := ⟨0x4C, [80, 0, 0, 0, 3, 0, 0, 0, 0, 0, 0]⟩
    let output := written ((new settings (List.replicate 24 0) .empty).run
      [.start, .step notice, .start, .step choiceFrame]).1
    output.length = 2 ∧ ∃ payload, output.head? = some (Frame.bytes ⟨0x56, payload⟩) ∧
      (Reads.whole (Shape.readAll [.word16, .word16, .named, .extensions])).run payload =
        .ok [.word16 1, .word16 0, .named [⟨"user", "edgedb"⟩, ⟨"database", "d"⟩, ⟨"k", "v"⟩],
          .extensions []] := by
  intro settings notice output
  have opening := output_is_opening settings (List.replicate 24 0) .empty
    [.start, .step notice, .start, .step choiceFrame]
  have two : output.length = 2 := by decide +kernel
  have filled : output ≠ [] := List.ne_nil_of_length_pos (by omega)
  have leads := List.head?_eq_some_head filled
  obtain ⟨payload, made, read⟩ := opening.2 _ leads
  refine ⟨two, payload, ?_, read⟩
  rw [leads, made]

end Connection
end SchemaWire
