import SchemaWire.Connection

/-!
# Runs of a connection

A client opens a connection and then gives it one message after the other, whatever it says to
each.
-/

namespace SchemaWire
namespace Connection

/-- What a client does with a connection. -/
inductive Call where
  /-- Open it. -/
  | start
  /-- Give it a message. -/
  | step (frame : Frame)
  deriving DecidableEq, Repr

/-- What a connection says to a call, and what becomes of it. -/
def apply (connection : Connection) (call : Call) : Except Fault Action × Connection :=
  let steps : Steps Action :=
    match call with
    | .start => start
    | .step frame => step frame
  match steps connection with
  | .ok action connection => (.ok action, connection)
  | .error fault connection => (.error fault, connection)

theorem apply_step (connection : Connection) (frame : Frame) :
    connection.apply (.step frame) =
      match step frame connection with
      | .ok action after => (.ok action, after)
      | .error fault after => (.error fault, after) := rfl

/-- What a connection says to calls in turn, and what becomes of it. -/
def run (connection : Connection) : List Call → List (Except Fault Action) × Connection
  | [] => ([], connection)
  | call :: calls =>
      let (answer, connection) := connection.apply call
      let (answers, connection) := run connection calls
      (answer :: answers, connection)

/-- The connection after calls in turn. -/
def after (connection : Connection) (calls : List Call) : Connection :=
  (connection.run calls).2

@[simp]
theorem after_nil (connection : Connection) : connection.after [] = connection := rfl

@[simp]
theorem after_cons (connection : Connection) (call : Call) (calls : List Call) :
    connection.after (call :: calls) = (connection.apply call).2.after calls := rfl

end Connection
end SchemaWire
