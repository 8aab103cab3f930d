import SchemaWire.Scram

/-!
# Runs of an exchange

A client is handed the server's messages one after the other, in any order and as often as its
owner likes.  A message that it does not answer leaves the client as it was, and so does the check
of a final message, whatever comes of it.
-/

namespace SchemaWire
namespace Scram
namespace Client

/-- What the owner of a client hands over to it. -/
inductive Call where
  /-- A first message of the server, to be answered. -/
  | answer (serverFirst : List UInt8)
  /-- A final message of the server, to be checked. -/
  | verify (serverFinal : List UInt8)
  deriving DecidableEq, Repr

/-- What a client says to a call, and what becomes of it. -/
def apply (client : Client) : Call → Except ScramFault (Option String) × Client
  | .answer serverFirst =>
      match answer serverFirst client with
      | .ok reply next => (.ok (some reply), next)
      | .error fault next => (.error fault, next)
  | .verify serverFinal => ((client.verify serverFinal).map fun _ => none, client)

/-- The client after calls in turn. -/
def after (client : Client) : List Call → Client
  | [] => client
  | call :: calls => (client.apply call).2.after calls

@[simp]
theorem after_nil (client : Client) : client.after [] = client := rfl

@[simp]
theorem after_cons (client : Client) (call : Call) (calls : List Call) :
    client.after (call :: calls) = (client.apply call).2.after calls := rfl

end Client
end Scram
end SchemaWire
