import SchemaWire.Wire.Reading

/-!
# Flags

A set of flags stands on the wire as one number.  A table gives each flag a mask; a number holds
the flags whose masks it covers, and a list of flags makes the number in which their masks are
joined.
-/

namespace SchemaWire

/-- Masks and the flags that they stand for. -/
abbrev FlagTable (α : Type) := List (UInt64 × α)

namespace FlagTable

variable {α : Type}

/-- The flags whose masks a number covers, in the order of the table. -/
def ofBits (table : FlagTable α) (bits : UInt64) : List α :=
  (table.filter fun entry => bits &&& entry.1 = entry.1).map Prod.snd

/-- A number holds a flag if it covers a mask that the table has for the flag. -/
theorem mem_ofBits {table : FlagTable α} {bits : UInt64} {flag : α} :
    flag ∈ table.ofBits bits ↔ ∃ mask, (mask, flag) ∈ table ∧ bits &&& mask = mask := by
  simp [ofBits]

/-- The mask of a flag: of several the first, and zero for a flag that the table lacks. -/
def mask [DecidableEq α] (table : FlagTable α) (flag : α) : UInt64 :=
  match table.find? fun entry => entry.2 = flag with
  | some entry => entry.1
  | none => 0

/-- The number in which the masks of flags are joined. -/
def toBits [DecidableEq α] (table : FlagTable α) (flags : List α) : UInt64 :=
  flags.foldl (fun bits flag => bits ||| table.mask flag) 0

/-- Read a number and the flags that it covers.  A negative number covers what its bits do. -/
def read (table : FlagTable α) (width : Width) : Reads (List α) := do
  let value ← Reads.integer width
  pure (table.ofBits (UInt64.ofInt value))

end FlagTable

/-- What a command may do. -/
inductive Capability where
  /-- Change data. -/
  | modifications
  /-- Change the configuration of the session. -/
  | sessionConfig
  /-- Control transactions. -/
  | transaction
  /-- Change the schema. -/
  | ddl
  /-- Change the configuration for good. -/
  | persistentConfig
  deriving DecidableEq, Repr

/-- The masks of capabilities. -/
def Capability.table : FlagTable Capability :=
  [(1, .modifications), (2, .sessionConfig), (4, .transaction), (8, .ddl),
    (16, .persistentConfig)]

end SchemaWire
