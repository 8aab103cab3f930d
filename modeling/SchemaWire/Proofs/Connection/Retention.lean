import SchemaWire.Connection.Shared
import SchemaWire.Proofs.Connection.Failure
import Mathlib.Data.List.Infix

/-!
# What a connection keeps

A server that has not let the client in may say what it likes: nothing of it is kept, and the codecs
that the connection shares with others stay as they are.  Once the connection is ready for commands,
the description of the session is settled, and only parameters and phases still change.
-/

namespace SchemaWire
namespace Connection

variable {settings : Settings} {before middle after : Connection} {frame : Frame} {action : Action}
  {call : Call} {answer : Except Fault Action} {fault : Fault}

/-! ## Before the server has let the client in -/

/-- What a server describes of a session is as it was, and so are the codecs. -/
structure Unmoved (before after : Connection) : Prop where
  keyData : after.keyData = before.keyData
  parameters : after.parameters = before.parameters
  transaction : after.transaction = before.transaction
  stateCodec : after.stateCodec = before.stateCodec
  cache : after.cache = before.cache

/-- The phases in which the server has not let the client in. -/
structure Barred (connection : Connection) : Prop where
  waiting : connection.phase ≠ .waitingReady
  ready : connection.phase ≠ .ready

theorem unmoved_of_accepts (accepted : Accepts before frame action after)
    (barred : before.Barred) : Unmoved before after ∧ after.phase ≠ .ready := by
  cases accepted with
  | notice => exact ⟨⟨rfl, rfl, rfl, rfl, rfl⟩, barred.ready⟩
  | agreed => exact ⟨⟨rfl, rfl, rfl, rfl, rfl⟩, barred.ready⟩
  | trusted => exact ⟨⟨rfl, rfl, rfl, rfl, rfl⟩, by simp⟩
  | begun => exact ⟨⟨rfl, rfl, rfl, rfl, rfl⟩, by simp⟩
  | challenged => exact ⟨⟨rfl, rfl, rfl, rfl, rfl⟩, barred.ready⟩
  | verified => exact ⟨⟨rfl, rfl, rfl, rfl, rfl⟩, barred.ready⟩
  | authenticated => exact ⟨⟨rfl, rfl, rfl, rfl, rfl⟩, by simp⟩
  | keyed phase | told phase | described phase | readied phase =>
      exact absurd phase barred.waiting
  | changed phase => exact absurd phase barred.ready

/-- Only a description of the session state that fails has moved anything by then. -/
theorem unmoved_of_stops (stops : Stops before fault after) (barred : before.Barred) :
    Unmoved before after := by
  cases stops with
  | undescribed phase => exact absurd phase barred.waiting
  | _ => exact ⟨rfl, rfl, rfl, rfl, rfl⟩

theorem unmoved_of_follows (follows : Follows before call answer after) (barred : before.Barred) :
    Unmoved before after ∧ after.phase ≠ .ready := by
  cases follows with
  | opened => exact ⟨⟨rfl, rfl, rfl, rfl, rfl⟩, by simp⟩
  | unopened => exact ⟨⟨rfl, rfl, rfl, rfl, rfl⟩, barred.ready⟩
  | accepted accepted => exact unmoved_of_accepts accepted barred
  | refused => exact ⟨⟨rfl, rfl, rfl, rfl, rfl⟩, barred.ready⟩
  | givenUp stops =>
      obtain ⟨keyData, parameters, transaction, stateCodec, cache⟩ := unmoved_of_stops stops barred
      exact ⟨⟨keyData, parameters, transaction, stateCodec, cache⟩, by simp [fail]⟩

/-- The server has not let the client in, and nothing of what it said is kept. -/
structure Outside (connection : Connection) : Prop where
  barred : connection.Barred
  keyData : connection.keyData = none
  parameters : connection.parameters = []
  transaction : connection.transaction = .notInTransaction
  stateCodec : connection.stateCodec = none

theorem outside_new (settings : Settings) (random : List UInt8) (cache : Cache) :
    (new settings random cache).Outside where
  barred := ⟨by simp [new], by simp [new]⟩
  keyData := rfl
  parameters := rfl
  transaction := rfl
  stateCodec := rfl

theorem Outside.occur (outside : before.Outside) {event : Event}
    (waiting : (before.occur event).phase ≠ .waitingReady) : (before.occur event).Outside := by
  cases event with
  | others cache =>
      exact ⟨⟨outside.barred.waiting, outside.barred.ready⟩, outside.keyData, outside.parameters,
        outside.transaction, outside.stateCodec⟩
  | call call =>
      obtain ⟨unmoved, ready⟩ := unmoved_of_follows (follows_apply before call) outside.barred
      refine ⟨⟨waiting, ready⟩, ?_, ?_, ?_, ?_⟩
      · exact unmoved.keyData.trans outside.keyData
      · exact unmoved.parameters.trans outside.parameters
      · exact unmoved.transaction.trans outside.transaction
      · exact unmoved.stateCodec.trans outside.stateCodec

theorem Outside.amid (outside : before.Outside) {events : List Event}
    (never : ∀ earlier, earlier <+: events → (before.amid earlier).phase ≠ .waitingReady) :
    (before.amid events).Outside := by
  induction events generalizing before with
  | nil => exact outside
  | cons event events ih =>
      have first := never [event] ⟨events, rfl⟩
      refine ih (outside.occur first) ?_
      intro earlier begins
      exact never (event :: earlier) (List.cons_prefix_cons.2 ⟨rfl, begins⟩)

/-! ## Once the connection is ready -/

/-- At most parameters, phases and the shared codecs have changed. -/
def Lasts (before after : Connection) : Prop :=
  after = { before with
    phase := after.phase
    parameters := after.parameters
    sasl := { before.sasl with phase := after.sasl.phase }
    cache := after.cache }

theorem Lasts.refl (connection : Connection) : Lasts connection connection := rfl

theorem Lasts.trans (first : Lasts before middle) (second : Lasts middle after) :
    Lasts before after := by
  refine Eq.trans second ?_
  rw [first]

theorem lasts_fail (connection : Connection) : Lasts connection connection.fail := by
  unfold fail Lasts
  split
  case isTrue => rfl
  case isFalse => rfl

/-- The phases in which the session has been described. -/
def Closed (connection : Connection) : Prop :=
  connection.phase = .ready ∨ connection.phase = .failed

theorem Closed.ne {phase : ConnectionPhase} (closed : before.Closed) (ready : phase ≠ .ready)
    (failed : phase ≠ .failed) : before.phase ≠ phase := by
  rintro rfl
  exact closed.elim ready failed

/-- A connection whose session has been described has nothing more to say. -/
theorem Closed.not_speaking (closed : before.Closed) : ¬ before.Speaking := by
  rintro (phase | phase)
  · exact absurd phase (closed.ne (by decide) (by decide))
  · exact absurd phase (closed.ne (by decide) (by decide))

theorem lasts_of_accepts (accepted : Accepts before frame action after) (closed : before.Closed) :
    Lasts before after ∧ after.cache = before.cache ∧ after.Closed := by
  cases accepted with
  | notice => exact ⟨.refl before, rfl, closed⟩
  | changed => exact ⟨rfl, rfl, closed⟩
  | agreed phase | trusted phase | begun phase | challenged phase | verified phase
  | authenticated phase | keyed phase | told phase | described phase | readied phase =>
      exact absurd phase (closed.ne (by decide) (by decide))

theorem lasts_of_stops (stops : Stops before fault after) (closed : before.Closed) :
    Lasts before after ∧ after.cache = before.cache := by
  cases stops with
  | refused => exact ⟨.refl before, rfl⟩
  | unheard speaking | disordered speaking => exact absurd speaking closed.not_speaking
  | clientless phase | stray phase | unverified phase | unsent phase | undescribed phase =>
      exact absurd phase (closed.ne (by decide) (by decide))

theorem lasts_of_follows (follows : Follows before call answer after) (closed : before.Closed) :
    Lasts before after ∧ after.cache = before.cache ∧ after.Closed := by
  cases follows with
  | opened phase | unopened phase => exact absurd phase (closed.ne (by decide) (by decide))
  | accepted accepted => exact lasts_of_accepts accepted closed
  | refused => exact ⟨.refl before, rfl, closed⟩
  | @givenUp _ _ middle stops =>
      obtain ⟨lasts, cache⟩ := lasts_of_stops stops closed
      exact ⟨lasts.trans (lasts_fail middle), cache, .inr rfl⟩

theorem lasts_occur (closed : before.Closed) (event : Event) :
    Lasts before (before.occur event) ∧ (before.occur event).Closed := by
  cases event with
  | others cache => exact ⟨rfl, closed⟩
  | call call =>
      obtain ⟨lasts, -, still⟩ := lasts_of_follows (follows_apply before call) closed
      exact ⟨lasts, still⟩

theorem lasts_amid (closed : before.Closed) (events : List Event) :
    Lasts before (before.amid events) ∧ (before.amid events).Closed := by
  induction events generalizing before with
  | nil => exact ⟨.refl before, closed⟩
  | cons event events ih =>
      obtain ⟨first, still⟩ := lasts_occur closed event
      obtain ⟨later, last⟩ := ih still
      exact ⟨first.trans later, last⟩

/-! ## Runs -/

/-- As long as the server has never let the client in, a connection holds nothing of what the server
said, and none of its calls has changed the codecs that it shares with others.  Once it is ready,
whatever is called and whatever others do with the codecs, at most its parameters, its phase and the
phase of its exchange still change. -/
theorem nothing_kept_before_admission (settings : Settings) (random : List UInt8) (cache : Cache)
    (events : List Event) :
    let start := new settings random cache
    let connection := start.amid events
    ((∀ earlier, earlier <+: events → (start.amid earlier).phase ≠ .waitingReady) →
      connection.keyData = none ∧ connection.parameters = [] ∧ connection.stateCodec = none ∧
      connection.transaction = .notInTransaction ∧
      ∀ call, (connection.apply call).2.cache = connection.cache) ∧
    (connection.phase = .ready → ∀ later,
      Lasts connection (connection.amid later) ∧
      ∀ call, ((connection.amid later).apply call).2.cache = (connection.amid later).cache) := by
  intro start connection
  constructor
  · intro never
    have outside : connection.Outside := (outside_new settings random cache).amid never
    refine ⟨outside.keyData, outside.parameters, outside.stateCodec, outside.transaction, ?_⟩
    intro call
    exact (unmoved_of_follows (follows_apply connection call) outside.barred).1.cache
  · intro ready later
    obtain ⟨lasts, closed⟩ := lasts_amid (.inl ready) later
    refine ⟨lasts, ?_⟩
    intro call
    exact (lasts_of_follows (follows_apply (connection.amid later) call) closed).2.1

/-- A key that comes before the server has let the client in is not kept, though others have entered
a generation meanwhile; and a ready connection that is told a parameter and then is sent a second
readiness message has that parameter and is given up. -/
theorem nothing_kept_before_admission_of_early_key :
    let start := new {} (List.replicate 24 0) .empty
    let early := start.amid
      [.call .start, .others ⟨some .nil, []⟩, .call (.step ⟨0x4B, List.replicate 32 7⟩)]
    let ready := start.amid
      [.call .start, .call (.step ⟨0x52, [0, 0, 0, 0]⟩), .call (.step ⟨0x5A, [0, 0, 73]⟩)]
    let later := ready.amid
      [.call (.step ⟨0x53, [0, 0, 0, 1, 110, 0, 0, 0, 1, 118]⟩),
        .call (.step ⟨0x5A, [0, 0, 73]⟩)]
    (early.phase = .failed ∧ early.keyData = none ∧ early.parameters = [] ∧
      early.cache.generation = some .nil) ∧
    ready.phase = .ready ∧ later.phase = .failed ∧ later.parameters = [("n", [118])] ∧
      Lasts ready later := by
  intro start early ready later
  have never : ∀ earlier, earlier <+:
      [.call .start, .others ⟨some .nil, []⟩, .call (.step ⟨0x4B, List.replicate 32 7⟩)] →
        (start.amid earlier).phase ≠ .waitingReady := by
    intro earlier begins
    revert earlier
    simp only [← List.mem_inits]
    decide
  obtain ⟨keyData, parameters, -⟩ :=
    (nothing_kept_before_admission {} (List.replicate 24 0) .empty _).1 never
  have opened : ready.phase = .ready := by decide
  obtain ⟨lasts, -⟩ :=
    (nothing_kept_before_admission {} (List.replicate 24 0) .empty _).2 opened
      [.call (.step ⟨0x53, [0, 0, 0, 1, 110, 0, 0, 0, 1, 118]⟩),
        .call (.step ⟨0x5A, [0, 0, 73]⟩)]
  exact ⟨⟨by decide, keyData, parameters, by decide⟩, opened, by decide, by decide, lasts⟩

end Connection
end SchemaWire
