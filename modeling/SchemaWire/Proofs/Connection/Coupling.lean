import SchemaWire.Proofs.Connection.Failure

/-!
# The parts of a connection fit each other

A connection has a phase, an authentication exchange and a client for it.  Each of them has states
of its own, and the connection moves them one after the other; yet in every state that calls can
reach, the exchange and the client are where the phase wants them.  So no call finds an exchange
without its client or an exchange that has begun too early.
-/

namespace SchemaWire
namespace Connection

open Fallible

variable {before after : Connection} {frame : Frame} {fault : Fault} {settings : Settings}

/-- The exchange and the client are where the phase wants them. -/
def Fitting (connection : Connection) : Prop :=
  match connection.phase with
  | .initial | .waitingAuth => connection.sasl.phase = .notStarted ∧ connection.scram = none
  | .saslInProgress =>
      connection.scram.isSome ∧ (connection.sasl.phase = .initialResponseSent ∨
        connection.sasl.phase = .finalResponseSent)
  | .waitingReady | .ready =>
      connection.scram = none ∧ (connection.sasl.phase = .notStarted ∨
        connection.sasl.phase = .authenticated)
  | .failed => connection.sasl.phase = .notStarted ∨ connection.sasl.phase = .failed

/-- The parts of a connection with some settings fit each other, and the version in effect is one
that was asked for. -/
structure Coupled (settings : Settings) (connection : Connection) : Prop where
  unchanged : connection.settings = settings
  version : connection.version.major = settings.version.major
  fitting : connection.Fitting

theorem coupled_new (settings : Settings) (random : List UInt8) (cache : Cache) :
    Coupled settings (new settings random cache) where
  unchanged := rfl
  version := rfl
  fitting := ⟨rfl, rfl⟩

/-! ## Accepted messages -/

theorem fitting_of_accepts {action : Action} (accepted : Accepts before frame action after)
    (held : before.Fitting) : after.Fitting := by
  cases accepted with
  | notice => exact held
  | agreed => exact held
  | trusted phase =>
      simp only [Fitting, phase] at held
      exact ⟨held.2, .inl held.1⟩
  | begun => exact ⟨rfl, .inl rfl⟩
  | challenged phase =>
      simp only [Fitting, phase]
      exact ⟨rfl, .inr rfl⟩
  | verified phase _ scram =>
      simp only [Fitting, phase, scram]
      exact ⟨rfl, .inr rfl⟩
  | authenticated => exact ⟨rfl, .inr rfl⟩
  | keyed => exact held
  | told => exact held
  | described => exact held
  | readied phase =>
      simp only [Fitting, phase] at held
      exact held
  | changed => exact held

theorem coupled_of_accepts {action : Action} (accepted : Accepts before frame action after)
    (held : Coupled settings before) : Coupled settings after where
  unchanged := by cases accepted <;> exact held.unchanged
  version := by
    cases accepted with
    | agreed _ _ near => exact near.trans (by rw [held.unchanged])
    | _ => exact held.version
  fitting := fitting_of_accepts accepted held.fitting

/-! ## Messages at which a connection stops -/

theorem fitting_fail (connection : Connection) : connection.fail.Fitting := by
  rcases sasl_phase_fail connection with ⟨fresh, -⟩ | given
  · exact .inl fresh
  · exact .inr given

theorem coupled_of_stops (stops : Stops before fault after) (held : Coupled settings before) :
    Coupled settings after.fail where
  unchanged := by cases stops <;> exact held.unchanged
  version := by cases stops <;> exact held.version
  fitting := fitting_fail after

theorem external_of_fails {session given : SaslSession} (fails : session.Fails fault given) :
    ¬ fault.IsInternal := by
  cases fails <;> exact id

/-- Parts that fit each other are not what a connection stops for. -/
theorem external_of_stops (stops : Stops before fault after) (held : before.Fitting) :
    ¬ fault.IsInternal := by
  cases stops with
  | refused external => exact external
  | unheard _ external => exact external
  | clientless phase missing => simp [Fitting, phase, missing] at held
  | stray phase received =>
      simp only [Fitting, phase] at held
      cases received <;> simp_all
  | disordered _ fails => exact external_of_fails fails
  | unverified => exact id
  | unsent _ _ fails => exact external_of_fails fails
  | undescribed _ lies => exact lies.external

/-! ## Calls -/

theorem coupled_of_follows {call : Call} {answer : Except Fault Action}
    (follows : Follows before call answer after) (held : Coupled settings before) :
    Coupled settings after ∧ ∀ fault, answer = .error fault → ¬ fault.IsInternal := by
  cases follows with
  | opened phase =>
      have fitting := held.fitting
      simp only [Fitting, phase] at fitting
      exact ⟨⟨held.unchanged, held.version, fitting⟩, by simp⟩
  | unopened =>
      refine ⟨⟨held.unchanged, held.version, held.fitting⟩, ?_⟩
      rintro _ ⟨⟩
      exact id
  | accepted accepted => exact ⟨coupled_of_accepts accepted held, by simp⟩
  | refused external =>
      refine ⟨held, ?_⟩
      rintro _ ⟨⟩
      exact external
  | givenUp stops =>
      refine ⟨coupled_of_stops stops held, ?_⟩
      rintro _ ⟨⟩
      exact external_of_stops stops held.fitting

theorem coupled_apply (held : Coupled settings before) (call : Call) :
    Coupled settings (before.apply call).2 ∧
      ∀ fault, (before.apply call).1 = .error fault → ¬ fault.IsInternal :=
  coupled_of_follows (follows_apply before call) held

theorem failed_of_follows {call : Call} {answer : Except Fault Action}
    (follows : Follows before call answer after) (phase : before.phase = .failed) :
    after.phase = .failed ∧ (∀ bytes, answer ≠ .ok (.write bytes)) ∧ answer ≠ .ok .finished := by
  cases follows with
  | opened fresh => simp [phase] at fresh
  | unopened fresh => simp [phase] at fresh
  | accepted accepted =>
      cases accepted with
      | notice => simp [phase]
      | _ => simp_all
  | refused => simp [phase]
  | givenUp => simp [fail]

/-- A connection that has been given up stays so, and has nothing more to send. -/
theorem failed_apply (phase : before.phase = .failed) (call : Call) :
    (before.apply call).2.phase = .failed ∧ (∀ bytes, (before.apply call).1 ≠ .ok (.write bytes)) ∧
      (before.apply call).1 ≠ .ok .finished :=
  failed_of_follows (follows_apply before call) phase

/-- In every state that calls can reach, the exchange and the client are where the phase of the
connection wants them, and the version has the number that was asked for.  So no call is answered
with a fault that says otherwise, and a connection that has been given up stays so. -/
theorem coupling (settings : Settings) (random : List UInt8) (cache : Cache) (calls : List Call) :
    let connection := (new settings random cache).after calls
    connection.Fitting ∧ connection.version.major = settings.version.major ∧
    (∀ call, (connection.apply call).1 ≠ .error (.protocol .clientMissing) ∧
      ∀ kind, (connection.apply call).1 ≠ .error (.protocol (.strayAuthentication kind))) ∧
    (connection.phase = .failed → ∀ more,
      (connection.after more).phase = .failed ∧
      ∀ call, (∀ bytes, ((connection.after more).apply call).1 ≠ .ok (.write bytes)) ∧
        ((connection.after more).apply call).1 ≠ .ok .finished) := by
  intro connection
  have held : Coupled settings connection :=
    after_induction (Coupled settings) (fun _ call held => (coupled_apply held call).1)
      (coupled_new settings random cache) calls
  refine ⟨held.fitting, held.version, ?_, ?_⟩
  · intro call
    have external := (coupled_apply held call).2
    constructor
    · intro given
      exact external _ given trivial
    · intro kind given
      exact external _ given trivial
  · intro phase more
    have later : (connection.after more).phase = .failed := by
      refine after_induction (·.phase = .failed) ?_ phase more
      intro before call phase
      exact (failed_apply phase call).1
    refine ⟨later, ?_⟩
    intro call
    exact (failed_apply later call).2

/-- An opened connection is given up at a readiness message, and cannot be opened again. -/
theorem coupling_of_early_readiness :
    let connection := (new {} (List.replicate 24 0) .empty).after [.start, .step ⟨0x5A, []⟩]
    connection.phase = .failed ∧ connection.sasl.phase = .notStarted ∧
      (connection.after [.start]).phase = .failed ∧
      ∀ bytes, ((connection.after []).apply .start).1 ≠ .ok (.write bytes) := by
  intro connection
  have phase : connection.phase = .failed := rfl
  obtain ⟨-, -, -, stays⟩ :=
    coupling {} (List.replicate 24 0) .empty [.start, .step ⟨0x5A, []⟩]
  exact ⟨phase, rfl, (stays phase [.start]).1, ((stays phase []).2 .start).1⟩

end Connection
end SchemaWire
