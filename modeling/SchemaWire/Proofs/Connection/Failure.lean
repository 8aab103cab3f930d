import SchemaWire.Proofs.Connection.Stop

/-!
# Failed steps

A step that fails gives the connection up, and with it an exchange that has begun.  The one
exception are notices and error reports whose payloads cannot be read: they are refused before the
connection is touched, which stays as it was.
-/

namespace SchemaWire

/-! ## Exchanges that have begun -/

namespace SaslSession

variable {session after : SaslSession}

/-- Something has been sent. -/
def Begun (session : SaslSession) : Prop :=
  session.phase ≠ .notStarted

theorem begun_of_receives {message : Authentication} {event : SaslEvent}
    (received : session.Receives message event after) : after.Begun := by
  cases received <;> simp [Begun, advance]

theorem begun_of_fails {fault : Fault} (fails : session.Fails fault after) (begun : session.Begun) :
    after.Begun := by
  cases fails with
  | unframed => exact begun
  | disordered => simp [Begun, fail]

end SaslSession

namespace Connection

variable {before after : Connection} {frame : Frame}

/-- An authentication exchange has begun. -/
def Begun (connection : Connection) : Prop :=
  connection.sasl.Begun

theorem begun_of_stops {fault : Fault} (stops : Stops before fault after) (begun : before.Begun) :
    after.Begun := by
  cases stops with
  | refused => exact begun
  | unheard => exact begun
  | clientless => exact begun
  | stray _ received => exact SaslSession.begun_of_receives received
  | disordered _ fails => exact SaslSession.begun_of_fails fails begun
  | unverified _ received => exact SaslSession.begun_of_receives received
  | unsent _ received fails =>
      exact SaslSession.begun_of_fails fails (SaslSession.begun_of_receives received)
  | undescribed => exact begun

/-- A step that fails has refused an unreadable notice or report, or it gives up a connection whose
exchange, if it had begun, still has. -/
theorem step_eq_error {fault : Fault} (failed : step frame before = .error fault after) :
    (Unreadable frame ∧ before = after) ∨
      (¬ Unreadable frame ∧
        ∃ middle : Connection, (before.Begun → middle.Begun) ∧ middle.fail = after) := by
  rcases stops_of_step failed with ⟨unreadable, -, same⟩ | ⟨readable, middle, stops, given⟩
  · exact .inl ⟨unreadable, same⟩
  · exact .inr ⟨readable, middle, begun_of_stops stops, given⟩

/-! ## What becomes of a connection -/

/-- A call opens a connection or does not, has a frame accepted, is refused, or gives the connection
up. -/
inductive Follows (before : Connection) : Call → Except Fault Action → Connection → Prop where
  | opened {bytes : List UInt8} (phase : before.phase = .initial)
      (sent : (handshake before.settings).bytes = .ok bytes) :
      Follows before .start (.ok (.write bytes))
        { before with phase := .waitingAuth, outbox := bytes.toArray }
  | unopened {cause : EncodeFault} (phase : before.phase = .initial) :
      Follows before .start (.error (.encode cause)) before.clear
  | accepted {frame : Frame} {action : Action} {after : Connection}
      (accepted : Accepts before frame action after) :
      Follows before (.step frame) (.ok action) after
  | refused {call : Call} {fault : Fault} (external : ¬ fault.IsInternal) :
      Follows before call (.error fault) before
  | givenUp {frame : Frame} {fault : Fault} {middle : Connection}
      (stops : Stops before fault middle) :
      Follows before (.step frame) (.error fault) middle.fail

theorem follows_apply (before : Connection) (call : Call) :
    Follows before call (before.apply call).1 (before.apply call).2 := by
  cases call with
  | start =>
      rw [apply]
      cases opened : start before with
      | ok action after =>
          obtain ⟨phase, bytes, sent, rfl, rfl⟩ := start_eq_ok.1 opened
          exact .opened phase sent
      | error fault after =>
          rcases start_eq_error opened with ⟨rfl, rfl⟩ | ⟨phase, ⟨cause, rfl⟩, rfl⟩
          · exact .refused id
          · exact .unopened phase
  | step frame =>
      rw [apply]
      cases stepped : step frame before with
      | ok action after => exact .accepted (step_eq_ok.1 stepped)
      | error fault after =>
          rcases stops_of_step stepped with ⟨-, external, rfl⟩ | ⟨-, middle, stops, rfl⟩
          · exact .refused external
          · exact .givenUp stops

theorem after_induction (holds : Connection → Prop)
    (each : ∀ connection call, holds connection → holds (connection.apply call).2)
    {connection : Connection} (held : holds connection) (calls : List Call) :
    holds (connection.after calls) := by
  induction calls generalizing connection with
  | nil => exact held
  | cons call calls ih => exact ih (each connection call held)

/-- A connection that has been given up has no exchange under way. -/
def Abandoned (connection : Connection) : Prop :=
  connection.phase = .failed →
    connection.sasl.phase = .notStarted ∨ connection.sasl.phase = .failed

theorem sasl_phase_fail (connection : Connection) :
    connection.fail.sasl.phase = .notStarted ∧ ¬ connection.Begun ∨
      connection.fail.sasl.phase = .failed := by
  unfold fail Begun SaslSession.Begun
  by_cases fresh : connection.sasl.phase = .notStarted
  · simp [fresh]
  · simp [fresh, SaslSession.fail]

theorem abandoned_of_ne_failed (alive : after.phase ≠ .failed) : after.Abandoned := by
  intro failed
  exact absurd failed alive

theorem abandoned_of_accepts {action : Action} (accepted : Accepts before frame action after)
    (held : before.Abandoned) : after.Abandoned := by
  cases accepted with
  | notice => exact held
  | agreed phase => exact abandoned_of_ne_failed (by simp [phase])
  | trusted => exact abandoned_of_ne_failed (by simp)
  | begun => exact abandoned_of_ne_failed (by simp)
  | challenged phase => exact abandoned_of_ne_failed (by simp [phase])
  | verified phase => exact abandoned_of_ne_failed (by simp [phase])
  | authenticated => exact abandoned_of_ne_failed (by simp)
  | keyed phase => exact abandoned_of_ne_failed (by simp [phase])
  | told phase => exact abandoned_of_ne_failed (by simp [phase])
  | described phase => exact abandoned_of_ne_failed (by simp [phase])
  | readied => exact abandoned_of_ne_failed (by simp)
  | changed phase => exact abandoned_of_ne_failed (by simp [phase])

theorem abandoned_of_follows {call : Call} {answer : Except Fault Action}
    (follows : Follows before call answer after) (held : before.Abandoned) : after.Abandoned := by
  cases follows with
  | opened => exact abandoned_of_ne_failed (by simp)
  | unopened => exact held
  | accepted accepted => exact abandoned_of_accepts accepted held
  | refused => exact held
  | @givenUp frame fault middle =>
      intro _
      rcases sasl_phase_fail middle with ⟨fresh, -⟩ | failed
      · exact .inl fresh
      · exact .inr failed

theorem abandoned_after (settings : Settings) (random : List UInt8) (cache : Cache)
    (calls : List Call) : ((new settings random cache).after calls).Abandoned := by
  have start : (new settings random cache).Abandoned :=
    abandoned_of_ne_failed (by simp [new])
  refine after_induction Abandoned ?_ start calls
  intro before call
  exact abandoned_of_follows (follows_apply before call)

/-- A step that fails leaves the connection failed, and its exchange too unless none had begun,
but for one case: an unreadable notice or report changes nothing, so that a connection which had
not failed before goes on. -/
theorem failed_iff_of_step_error (settings : Settings) (random : List UInt8) (cache : Cache)
    (calls : List Call) (frame : Frame) (fault : Fault) (after : Connection)
    (failed : step frame ((new settings random cache).after calls) = .error fault after) :
    let before := (new settings random cache).after calls
    (after.phase = .failed ∧ (before.sasl.phase = .notStarted ∨ after.sasl.phase = .failed) ↔
        ¬ Unreadable frame ∨ before.phase = .failed) ∧
      (Unreadable frame → after = before) := by
  intro before
  have abandoned : before.Abandoned := abandoned_after settings random cache calls
  rcases step_eq_error failed with ⟨unreadable, rfl⟩ | ⟨readable, middle, kept, rfl⟩
  · refine ⟨⟨?_, ?_⟩, ?_⟩
    · rintro ⟨phase, -⟩
      exact .inr phase
    · rintro (readable | phase)
      · exact absurd unreadable readable
      · exact ⟨phase, abandoned phase⟩
    · intro _
      rfl
  · refine ⟨⟨?_, ?_⟩, ?_⟩
    · intro _
      exact .inl readable
    · intro _
      refine ⟨rfl, ?_⟩
      rcases sasl_phase_fail middle with ⟨-, fresh⟩ | given
      · exact .inl (not_not.1 fun begun => fresh (kept begun))
      · exact .inr given
    · intro unreadable
      exact absurd unreadable readable

/-- An opened connection outlives a notice without a payload. -/
theorem failed_iff_of_empty_notice :
    let before := (new {} (List.replicate 24 0) .empty).after [.start]
    let fault := Fault.framing (.short .byte 1 0 0)
    step ⟨LogMessage.format.opcode, []⟩ before = .error fault before ∧
      before.phase = .waitingAuth ∧
      (before.phase = .failed ∧
          (before.sasl.phase = .notStarted ∨ before.sasl.phase = .failed) ↔
        ¬ Unreadable ⟨LogMessage.format.opcode, []⟩ ∨ before.phase = .failed) := by
  intro before fault
  have refused : step ⟨LogMessage.format.opcode, []⟩ before = .error fault before := rfl
  have extent := failed_iff_of_step_error {} (List.replicate 24 0) .empty [.start] _ _ _ refused
  exact ⟨refused, rfl, extent.1⟩

end Connection
end SchemaWire
