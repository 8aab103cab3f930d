import SchemaWire.Frame
import SchemaWire.Version
import SchemaWire.Wire.Annotated

/-!
# Settings

What a client is told before it connects.
-/

namespace SchemaWire

/-- What a client needs to know to connect. -/
structure Settings where
  /-- The user to connect as. -/
  user : String := "edgedb"
  /-- The password of the user. -/
  password : Option String := none
  /-- The database to connect to. -/
  database : Option String := none
  /-- The branch to connect to. -/
  branch : Option String := none
  /-- A key that stands for a password. -/
  secretKey : Option String := none
  /-- The largest length of a message that is accepted. -/
  maxMessageLength : Nat := 16777216
  /-- The version to ask for. -/
  version : Version := .standard
  /-- Further parameters of the handshake. -/
  extra : List NamedText := []
  deriving DecidableEq, Repr

namespace Settings

/-- A parameter that is left out if it has no value. -/
def optional (name : String) : Option String → List NamedText
  | none => []
  | some value => [⟨name, value⟩]

/-- The parameters of the handshake: the user, what else is set, and the further ones. -/
def parameters (settings : Settings) : List NamedText :=
  ⟨"user", settings.user⟩ :: optional "database" settings.database
    ++ optional "branch" settings.branch ++ optional "secret_key" settings.secretKey
    ++ settings.extra

/-- An inbox for messages of the accepted length. -/
def inbox (settings : Settings) : Inbox :=
  Inbox.empty settings.maxMessageLength

end Settings
end SchemaWire
