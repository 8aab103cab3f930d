import SchemaWire.SaslSession

/-!
# Runs of an authentication session

A session is used by one call after the other, in any order, and its owner may give it up at any
time.  What it sends is put after what waits to be sent already.  A call that fails is no reason to
stop; what the failure leaves behind is the session of the next call.
-/

namespace SchemaWire
namespace SaslSession

/-- A message of an exchange, to be sent or as it was received. -/
inductive Move where
  /-- Choose a mechanism. -/
  | start (mechanism : String) (bytes : List UInt8)
  /-- Answer a challenge. -/
  | respond (bytes : List UInt8)
  /-- Take in a message of the server. -/
  | receive (message : Authentication)
  deriving DecidableEq, Repr

/-- What the owner of a session does with it. -/
inductive Call where
  /-- Send or take in a message. -/
  | move (move : Move)
  /-- Give the session up. -/
  | fail
  deriving DecidableEq, Repr

namespace Channel

/-- A new session. -/
def new (outbox : Outbox) : Channel := ⟨.new, outbox⟩

/-- What a session says to a message that it sends, and what becomes of it. -/
def send (channel : Channel) (transmits : Transmits Unit) :
    Except Fault (Option SaslEvent) × Channel :=
  match transmits channel with
  | .ok () after => (.ok none, after)
  | .error fault after => (.error fault, after)

/-- What a session says to a message, and what becomes of it. -/
def make (channel : Channel) : Move → Except Fault (Option SaslEvent) × Channel
  | .start mechanism bytes => channel.send (SaslSession.start mechanism bytes)
  | .respond bytes => channel.send (SaslSession.respond bytes)
  | .receive message =>
      match SaslSession.receive message channel.session with
      | .ok event session => (.ok (some event), { channel with session })
      | .error fault session => (.error fault, { channel with session })

/-- What a session says to a call, and what becomes of it. -/
def apply (channel : Channel) : Call → Except Fault (Option SaslEvent) × Channel
  | .move move => channel.make move
  | .fail => (.ok none, { channel with session := channel.session.fail })

/-- The session after calls in turn. -/
def after (channel : Channel) : List Call → Channel
  | [] => channel
  | call :: calls => (channel.apply call).2.after calls

/-- The messages among calls in turn that succeed. -/
def accepted (channel : Channel) : List Call → List Move
  | [] => []
  | .fail :: calls => (channel.apply .fail).2.accepted calls
  | .move move :: calls =>
      match channel.make move with
      | (.ok _, after) => move :: after.accepted calls
      | (.error _, after) => after.accepted calls

@[simp]
theorem after_cons (channel : Channel) (call : Call) (calls : List Call) :
    channel.after (call :: calls) = (channel.apply call).2.after calls := rfl

end Channel
end SaslSession
end SchemaWire
