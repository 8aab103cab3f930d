import SchemaWire.Connection.Run

/-!
# Connections that share their codecs

Several connections may resolve types in one cache.  Between the calls of one of them the others may
leave it with other codecs, or in another generation.
-/

namespace SchemaWire
namespace Connection

/-- What happens to a connection that shares its cache. -/
inductive Event where
  /-- A call of the connection. -/
  | call (call : Call)
  /-- Others leave the cache like this. -/
  | others (cache : Cache)
  deriving Repr

/-- The connection after an event. -/
def occur (connection : Connection) : Event → Connection
  | .call call => (connection.apply call).2
  | .others cache => { connection with cache }

/-- The connection after events in turn. -/
def amid (connection : Connection) (events : List Event) : Connection :=
  events.foldl occur connection

@[simp]
theorem amid_cons (connection : Connection) (event : Event) (events : List Event) :
    connection.amid (event :: events) = (connection.occur event).amid events := rfl

end Connection
end SchemaWire
