import SchemaWire.Proofs.SaslSession.Step
import SchemaWire.SaslSession.Run

/-!
# The order of an exchange

An exchange has five messages in one order.  Whatever calls a session is given, those that succeed
are a beginning of this order: a session waits for one message, and a call with any other is refused
and gives the session up for good.
-/

namespace SchemaWire
namespace SaslSession

/-- Whose turn it is in an exchange, and for what. -/
inductive Turn where
  /-- The client chooses a mechanism. -/
  | start
  /-- The client answers a challenge. -/
  | respond
  /-- The server sends a message. -/
  | receive (kind : Authentication.Kind)
  deriving DecidableEq, Repr

/-- The order of the messages of an exchange. -/
def order : List Turn :=
  [.start, .receive .challenge, .respond, .receive .final, .receive .ok]

namespace Move

/-- The turn that a message takes. -/
def turn : Move → Turn
  | .start _ _ => .start
  | .respond _ => .respond
  | .receive message => .receive message.kind

/-- The message that is sent, if one is. -/
def message? : Move → Option ClientMessage
  | .start mechanism bytes => some (.saslInitialResponse mechanism bytes)
  | .respond bytes => some (.saslResponse bytes)
  | .receive _ => none

end Move

variable {session : SaslSession} {channel : Channel} {move : Move} {past : List Move}

/-! ## One message -/

/-- The turn that a session waits for. -/
def due? (session : SaslSession) : Option Turn :=
  match session.phase with
  | .notStarted => some .start
  | .initialResponseSent => some (.receive .challenge)
  | .challengeReceived => some .respond
  | .finalResponseSent => some (.receive (if session.finalReceived then .ok else .final))
  | .authenticated | .failed => none

/-- A session that has taken note of a message. -/
def note (session : SaslSession) : Move → SaslSession
  | .start mechanism _ => { session.advance .initialResponseSent with mechanism := some mechanism }
  | .respond _ => session.advance .finalResponseSent
  | .receive (.challenge _) => session.advance .challengeReceived
  | .receive (.final _) => { session.advance .finalResponseSent with finalReceived := true }
  | .receive .ok => session.advance .authenticated
  | .receive (.mechanisms _) => session

/-- A message is accepted in its turn unless its frame is too long, and refused out of its turn. -/
inductive Made (channel : Channel) (move : Move) :
    Except Fault (Option SaslEvent) → Channel → Prop where
  | accepted {event : Option SaslEvent} {outbox : Outbox}
      (due : channel.session.due? = some move.turn) :
      Made channel move (.ok event) ⟨channel.session.note move, outbox⟩
  | unframed {message : ClientMessage} {cause : EncodeFault}
      (due : channel.session.due? = some move.turn) (sent : move.message? = some message)
      (long : Misfit.lengthMax < message.size + 4) :
      Made channel move (.error (.encode cause)) channel
  | disordered {cause : SequenceFault} (undue : channel.session.due? ≠ some move.turn) :
      Made channel move (.error (.sequence channel.session.phase cause))
        ⟨channel.session.fail, channel.outbox⟩

/-- The due phase of a message that is sent is the one in which the session waits for it. -/
theorem made_send {due : SaslPhase} {cause : SequenceFault} {message : ClientMessage}
    (waits : channel.session.due? = some move.turn ↔ channel.session.phase = due)
    (sent : move.message? = some message) (counted : message.Counted) :
    Made channel move (channel.send (transmit due cause message (·.note move))).1
      (channel.send (transmit due cause message (·.note move))).2 := by
  rw [Channel.send, transmit]
  by_cases same : channel.session.phase = due
  · simp only [if_pos same]
    rcases Nat.lt_or_ge Misfit.lengthMax (message.size + 4) with long | fits
    · have refused : message.send channel.outbox =
          .error (.encode (.length (message.size + 4))) channel.outbox := Frame.send_of_long long
      rw [refused]
      exact .unframed (waits.2 same) sent long
    · rw [ClientMessage.send_of_counted counted fits]
      exact .accepted (waits.2 same)
  · simp only [if_neg same]
    exact .disordered (mt waits.1 same)

theorem receives_of_due {message : Authentication}
    (due : session.due? = some (.receive message.kind)) :
    ∃ event, session.Receives message event (session.note (.receive message)) := by
  cases phase : session.phase with
  | initialResponseSent =>
      cases message with
      | challenge bytes => exact ⟨_, .challenge phase⟩
      | _ => simp [due?, phase, Authentication.kind] at due
  | finalResponseSent =>
      cases proved : session.finalReceived with
      | false =>
          cases message with
          | final bytes => exact ⟨_, .final phase proved⟩
          | _ => simp [due?, phase, proved, Authentication.kind] at due
      | true =>
          cases message with
          | ok => exact ⟨_, .ok phase proved⟩
          | _ => simp [due?, phase, proved, Authentication.kind] at due
  | _ => simp [due?, phase] at due

theorem due_of_receives {message : Authentication} {event : SaslEvent} {after : SaslSession}
    (received : session.Receives message event after) :
    session.due? = some (.receive message.kind) ∧ after = session.note (.receive message) := by
  cases received with
  | challenge phase => simp [due?, phase, note, Authentication.kind]
  | final phase unproved => simp [due?, phase, unproved, note, Authentication.kind]
  | ok phase proved => simp [due?, phase, proved, note, Authentication.kind]

theorem made (channel : Channel) (move : Move) :
    Made channel move (channel.make move).1 (channel.make move).2 := by
  cases move with
  | start mechanism bytes =>
      refine made_send ?_ rfl trivial
      cases phase : channel.session.phase <;> simp [due?, phase, Move.turn]
  | respond bytes =>
      refine made_send ?_ rfl trivial
      cases phase : channel.session.phase <;> simp [due?, phase, Move.turn]
  | receive message =>
      rw [Channel.make]
      cases received : SaslSession.receive message channel.session with
      | ok event session =>
          obtain ⟨due, rfl⟩ := due_of_receives (receive_eq_ok.1 received)
          exact .accepted due
      | error fault session =>
          obtain ⟨cause, rfl, rfl⟩ := receive_eq_error received
          refine .disordered fun due => ?_
          obtain ⟨event, accepted⟩ := receives_of_due due
          simp [receive_eq_ok.2 accepted] at received

/-! ## Messages in turn -/

/-- Where a session is after a number of messages. -/
def place : Nat → SaslPhase × Bool
  | 0 => (.notStarted, false)
  | 1 => (.initialResponseSent, false)
  | 2 => (.challengeReceived, false)
  | 3 => (.finalResponseSent, false)
  | 4 => (.finalResponseSent, true)
  | _ => (.authenticated, true)

/-- A session has accepted some messages. -/
structure Tracks (session : SaslSession) (past : List Move) : Prop where
  counted : session.exchanges = past.length
  ordered : past.map Move.turn <+: order
  chosen : ∀ mechanism, session.mechanism = some mechanism ↔ ∃ bytes, .start mechanism bytes ∈ past
  placed : session.phase ≠ .failed → (session.phase, session.finalReceived) = place past.length

theorem Tracks.few (tracked : session.Tracks past) : past.length ≤ 5 := by
  have within := tracked.ordered.length_le
  rwa [List.length_map] at within

theorem tracks_new : Tracks new [] where
  counted := rfl
  ordered := List.nil_prefix
  chosen := by simp [new]
  placed _ := rfl

/-- A session that has been given up has still accepted what it has. -/
theorem Tracks.fail (tracked : session.Tracks past) : session.fail.Tracks past where
  counted := tracked.counted
  ordered := tracked.ordered
  chosen := tracked.chosen
  placed running := absurd rfl running

/-- A session that has not been given up waits for the next message of the order. -/
theorem Tracks.due?_eq (tracked : session.Tracks past) (running : session.phase ≠ .failed) :
    session.due? = order[past.length]? := by
  have every : ∀ count ≤ 5,
      due? ⟨(place count).1, none, 0, (place count).2⟩ = order[count]? := by decide
  obtain ⟨phase, proved⟩ := Prod.ext_iff.1 (tracked.placed running)
  rw [← every past.length tracked.few, ← phase, ← proved]
  rfl

theorem concat_prefix_iff {α : Type} {front whole : List α} {item : α} (begun : front <+: whole) :
    front ++ [item] <+: whole ↔ whole[front.length]? = some item := by
  obtain ⟨rest, rfl⟩ := begun
  rw [List.prefix_append_right_inj]
  cases rest <;> simp [eq_comm]

/-- A message is due if and only if it goes on with the order. -/
theorem Tracks.due_iff (tracked : session.Tracks past) (running : session.phase ≠ .failed) :
    session.due? = some move.turn ↔ past.map Move.turn ++ [move.turn] <+: order := by
  rw [concat_prefix_iff tracked.ordered, List.length_map, tracked.due?_eq running]

theorem running_of_due {turn : Turn} (due : session.due? = some turn) :
    session.phase ≠ .failed := by
  intro failed
  simp [due?, failed] at due

/-- Each message of the order has one place in it. -/
theorem Tracks.length_eq (tracked : session.Tracks past) (due : session.due? = some move.turn) :
    past.length = order.idxOf move.turn := by
  have found := tracked.due?_eq (running_of_due due)
  rw [due] at found
  obtain ⟨within, held⟩ := List.getElem?_eq_some_iff.1 found.symm
  have distinct : order.Nodup := by decide
  rw [← held, distinct.idxOf_getElem]

theorem not_due_mechanisms : session.due? ≠ some (.receive .mechanisms) := by
  cases phase : session.phase with
  | finalResponseSent => cases proved : session.finalReceived <;> simp [due?, phase, proved]
  | _ => simp [due?, phase]

theorem exchanges_note (due : session.due? = some move.turn) :
    (session.note move).exchanges = session.exchanges + 1 := by
  cases move with
  | start mechanism bytes => rfl
  | respond bytes => rfl
  | receive message =>
      cases message with
      | mechanisms names => exact absurd due not_due_mechanisms
      | _ => rfl

theorem placed_note (tracked : session.Tracks past) (due : session.due? = some move.turn) :
    ((session.note move).phase, (session.note move).finalReceived) = place (past.length + 1) := by
  have placed := tracked.placed (running_of_due due)
  rw [tracked.length_eq due] at placed ⊢
  obtain ⟨-, proved⟩ := Prod.ext_iff.1 placed
  cases move with
  | start mechanism bytes => exact Prod.ext rfl proved
  | respond bytes => exact Prod.ext rfl proved
  | receive message =>
      cases message with
      | challenge bytes => exact Prod.ext rfl proved
      | final bytes => rfl
      | ok => exact Prod.ext rfl proved
      | mechanisms names => exact absurd due not_due_mechanisms

theorem mechanism_note (tracked : session.Tracks past) (due : session.due? = some move.turn)
    (mechanism : String) :
    (session.note move).mechanism = some mechanism ↔
      ∃ bytes, .start mechanism bytes ∈ past ++ [move] := by
  cases move with
  | start chosen bytes =>
      have nothing : past = [] := List.eq_nil_of_length_eq_zero (tracked.length_eq due)
      simp [nothing, note, eq_comm]
  | respond bytes => simpa [note, advance] using tracked.chosen mechanism
  | receive message =>
      have kept : (session.note (.receive message)).mechanism = session.mechanism := by
        cases message <;> rfl
      simpa [kept] using tracked.chosen mechanism

/-- A session that accepts the message that is due has accepted one message more. -/
theorem Tracks.note (tracked : session.Tracks past) (due : session.due? = some move.turn) :
    (session.note move).Tracks (past ++ [move]) where
  counted := by rw [exchanges_note due, tracked.counted, List.length_append]; rfl
  ordered := by
    rw [List.map_append]
    exact (tracked.due_iff (running_of_due due)).1 due
  chosen := mechanism_note tracked due
  placed _ := by rw [placed_note tracked due, List.length_append]; rfl

/-! ## Calls in turn -/

theorem tracks_after (channel : Channel) (tracked : channel.session.Tracks past)
    (calls : List Call) :
    (channel.after calls).session.Tracks (past ++ channel.accepted calls) := by
  induction calls generalizing channel past with
  | nil => rwa [Channel.accepted, List.append_nil]
  | cons call calls ih =>
      cases call with
      | fail => exact ih _ tracked.fail
      | move move =>
          have step := made channel move
          rw [Channel.after_cons, Channel.apply, Channel.accepted]
          generalize channel.make move = result at step ⊢
          obtain ⟨answer, given⟩ := result
          cases step with
          | @accepted event outbox due =>
              have later := ih ⟨channel.session.note move, outbox⟩ (tracked.note due)
              rwa [List.append_assoc] at later
          | unframed => exact ih _ tracked
          | disordered => exact ih _ tracked.fail

theorem make_of_undue (undue : channel.session.due? ≠ some move.turn) :
    ∃ cause, channel.make move = (.error (.sequence channel.session.phase cause),
      ⟨channel.session.fail, channel.outbox⟩) := by
  have step := made channel move
  generalize channel.make move = result at step ⊢
  obtain ⟨answer, after⟩ := result
  cases step with
  | accepted due => exact absurd due undue
  | unframed due => exact absurd due undue
  | @disordered cause => exact ⟨cause, rfl⟩

theorem make_of_due (due : channel.session.due? = some move.turn) :
    (∃ event after, channel.make move = (.ok event, after)) ∨
      ∃ message cause, move.message? = some message ∧ Misfit.lengthMax < message.size + 4 ∧
        channel.make move = (.error (.encode cause), channel) := by
  have step := made channel move
  generalize channel.make move = result at step ⊢
  obtain ⟨answer, after⟩ := result
  cases step with
  | @accepted event outbox => exact .inl ⟨event, _, rfl⟩
  | @unframed message cause _ sent long => exact .inr ⟨message, cause, sent, long, rfl⟩
  | disordered undue => exact absurd due undue

theorem fail_of_failed (failed : session.phase = .failed) : session.fail = session := by
  obtain ⟨phase, mechanism, exchanges, proved⟩ := session
  obtain rfl : phase = .failed := failed
  rfl

/-- A session that has been given up refuses every message, and stays as it is. -/
theorem make_of_failed (failed : channel.session.phase = .failed) (move : Move) :
    ∃ cause, channel.make move = (.error (.sequence .failed cause), channel) := by
  have undue : channel.session.due? ≠ some move.turn := fun due => running_of_due due failed
  have refused := make_of_undue undue
  rwa [failed, fail_of_failed failed] at refused

theorem after_of_failed (failed : channel.session.phase = .failed) (calls : List Call) :
    channel.after calls = channel := by
  induction calls with
  | nil => rfl
  | cons call calls ih =>
      have same : (channel.apply call).2 = channel := by
        cases call with
        | fail => rw [Channel.apply, fail_of_failed failed]
        | move move =>
            obtain ⟨cause, refused⟩ := make_of_failed failed move
            rw [Channel.apply, refused]
      rw [Channel.after_cons, same, ih]

/-- A message goes on with what a session has accepted that has not been given up. -/
def Due (session : SaslSession) (past : List Move) (move : Move) : Prop :=
  session.phase ≠ .failed ∧ past.map Move.turn ++ [move.turn] <+: order

theorem Tracks.due (tracked : session.Tracks past) :
    session.Due past move ↔ session.due? = some move.turn := by
  constructor
  · rintro ⟨running, next⟩
    exact (tracked.due_iff running).2 next
  · intro due
    have running := running_of_due due
    exact ⟨running, (tracked.due_iff running).1 due⟩

theorem Tracks.complete (tracked : session.Tracks past) (ended : session.phase = .authenticated) :
    past.map Move.turn = order := by
  have last : ∀ count ≤ 5, (place count).1 = .authenticated → count = 5 := by decide
  have running : session.phase ≠ .failed := by simp [ended]
  have phase := congrArg Prod.fst (tracked.placed running)
  refine tracked.ordered.eq_of_length ?_
  rw [List.length_map, last past.length tracked.few (phase.symm.trans ended)]
  rfl

/-- Whatever calls a new session is given, the messages that it accepts are a beginning of the order
of an exchange: all of it, if the session says so.  A message that does not go on with the order
gives the session up, and sends nothing; one that does is accepted unless its frame is too long,
which changes nothing. -/
theorem order_kept (outbox : Outbox) (calls : List Call) :
    let channel := (Channel.new outbox).after calls
    let accepted := (Channel.new outbox).accepted calls
    channel.session.exchanges = accepted.length ∧ accepted.length ≤ 5 ∧
    (∀ mechanism, channel.session.mechanism = some mechanism ↔
      ∃ bytes, .start mechanism bytes ∈ accepted) ∧
    (channel.session.phase = .authenticated → accepted.map Move.turn = order) ∧
    ∀ move,
      (¬ channel.session.Due accepted move →
        let given : Channel := ⟨channel.session.fail, channel.outbox⟩
        (∃ cause,
          channel.make move = (.error (.sequence channel.session.phase cause), given)) ∧
        ∀ more later, ∃ cause,
          (given.after more).make later = (.error (.sequence .failed cause), given)) ∧
      (channel.session.Due accepted move →
        (∃ event after, channel.make move = (.ok event, after)) ∨
        ∃ message cause, move.message? = some message ∧
          Misfit.lengthMax < message.size + 4 ∧
          channel.make move = (.error (.encode cause), channel)) := by
  intro channel accepted
  have tracked : channel.session.Tracks accepted := tracks_after (.new outbox) tracks_new calls
  refine ⟨tracked.counted, tracked.few, tracked.chosen, tracked.complete, ?_⟩
  intro move
  rw [tracked.due]
  refine ⟨?_, make_of_due⟩
  intro undue
  refine ⟨make_of_undue undue, ?_⟩
  intro more later
  have given : (⟨channel.session.fail, channel.outbox⟩ : Channel).session.phase = .failed := rfl
  rw [after_of_failed given]
  exact make_of_failed given later

/-- The first three messages of an exchange. -/
def answeredSample : List Call :=
  [.move (.start "S" [1]), .move (.receive (.challenge [2])), .move (.respond [3])]

/-- A server that has not proved itself cannot end the exchange, and an early end is the end of it;
what it has to show is taken in. -/
theorem order_kept_answeredSample :
    let channel := (Channel.new #[]).after answeredSample
    let given : Channel := ⟨channel.session.fail, channel.outbox⟩
    (∃ cause, channel.make (.receive .ok) =
      (.error (.sequence .finalResponseSent cause), given)) ∧
    (∃ cause, (given.after [.fail]).make (.respond []) =
      (.error (.sequence .failed cause), given)) ∧
    ((∃ event after, channel.make (.receive (.final [4])) = (.ok event, after)) ∨
      ∃ message cause, (Move.receive (.final [4])).message? = some message ∧
        Misfit.lengthMax < message.size + 4 ∧
        channel.make (.receive (.final [4])) = (.error (.encode cause), channel)) := by
  intro channel given
  have phase : channel.session.phase = .finalResponseSent := rfl
  have accepted : ((Channel.new #[]).accepted answeredSample).map Move.turn =
      [.start, .receive .challenge, .respond] := rfl
  obtain ⟨-, -, -, -, each⟩ := order_kept #[] answeredSample
  have early :
      ¬ channel.session.Due ((Channel.new #[]).accepted answeredSample) (.receive .ok) := by
    rintro ⟨-, next⟩
    rw [accepted] at next
    exact absurd next (by decide)
  have undue := (each (.receive .ok)).1 early
  have next := (each (.receive (.final [4]))).2 ⟨by rw [phase]; decide, by rw [accepted]; decide⟩
  exact ⟨undue.1, undue.2 [.fail] (.respond []), next⟩

end SaslSession
end SchemaWire
