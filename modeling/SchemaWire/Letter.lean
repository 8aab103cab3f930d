import SchemaWire.Fault

/-!
# Letters

Choices that stand on the wire as one letter.
-/

namespace SchemaWire

/-- How many results a command has, or how many values an element of a shape. -/
inductive Cardinality where
  /-- None at all. -/
  | noResult
  /-- One or none. -/
  | atMostOne
  /-- One. -/
  | one
  /-- Any number. -/
  | many
  /-- One or more. -/
  | atLeastOne
  deriving DecidableEq, Repr

namespace Cardinality

/-- The letter of a cardinality. -/
def byte : Cardinality → UInt8
  | .noResult => 0x6E
  | .atMostOne => 0x6F
  | .one => 0x41
  | .many => 0x6D
  | .atLeastOne => 0x4D

/-- The cardinality of a letter. -/
def ofByte (byte : UInt8) : Except Fault Cardinality :=
  if byte = 0x6E then .ok .noResult
  else if byte = 0x6F then .ok .atMostOne
  else if byte = 0x41 then .ok .one
  else if byte = 0x6D then .ok .many
  else if byte = 0x4D then .ok .atLeastOne
  else .error (.protocol (.cardinality byte))

theorem ofByte_byte (cardinality : Cardinality) : ofByte cardinality.byte = .ok cardinality := by
  cases cardinality <;> rfl

end Cardinality

/-- Where a session stands with regard to transactions. -/
inductive TransactionState where
  /-- Outside of transactions. -/
  | notInTransaction
  /-- In a transaction. -/
  | inTransaction
  /-- In a transaction that can only be rolled back. -/
  | inFailedTransaction
  deriving DecidableEq, Repr

namespace TransactionState

/-- The letter of a state. -/
def byte : TransactionState → UInt8
  | .notInTransaction => 0x49
  | .inTransaction => 0x54
  | .inFailedTransaction => 0x45

/-- The state of a letter, if it is one. -/
def ofByte? (byte : UInt8) : Option TransactionState :=
  if byte = 0x49 then some .notInTransaction
  else if byte = 0x54 then some .inTransaction
  else if byte = 0x45 then some .inFailedTransaction
  else none

/-- Whether the session is in a transaction, failed or not. -/
def isInside : TransactionState → Bool
  | .notInTransaction => false
  | .inTransaction | .inFailedTransaction => true

end TransactionState
end SchemaWire
