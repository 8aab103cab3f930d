/-!
# Phases

How far an authentication exchange and a connection have come.  The names are the ones that
messages about a wrong phase use.
-/

namespace SchemaWire

/-- How far an authentication exchange has come. -/
inductive SaslPhase where
  /-- Nothing has been sent. -/
  | notStarted
  /-- The first response is on its way. -/
  | initialResponseSent
  /-- The server has sent its challenge. -/
  | challengeReceived
  /-- The challenge has been answered. -/
  | finalResponseSent
  /-- The server has confirmed the exchange. -/
  | authenticated
  /-- A message came out of order, or the connection failed. -/
  | failed
  deriving DecidableEq, Repr

/-- The name of a phase of an exchange. -/
def SaslPhase.name : SaslPhase → String
  | .notStarted => "NotStarted"
  | .initialResponseSent => "InitialResponseSent"
  | .challengeReceived => "ChallengeReceived"
  | .finalResponseSent => "FinalResponseSent"
  | .authenticated => "Authenticated"
  | .failed => "Failed"

/-- How far a connection has come. -/
inductive ConnectionPhase where
  /-- Nothing has been sent. -/
  | initial
  /-- The handshake is on its way; the server decides how to authenticate. -/
  | waitingAuth
  /-- An authentication exchange is under way. -/
  | saslInProgress
  /-- The server describes the session. -/
  | waitingReady
  /-- Commands may be sent. -/
  | ready
  /-- The connection is of no more use. -/
  | failed
  deriving DecidableEq, Repr

/-- The name of a phase of a connection. -/
def ConnectionPhase.name : ConnectionPhase → String
  | .initial => "Initial"
  | .waitingAuth => "WaitingAuth"
  | .saslInProgress => "SaslInProgress"
  | .waitingReady => "WaitingReady"
  | .ready => "Ready"
  | .failed => "Failed"

end SchemaWire
