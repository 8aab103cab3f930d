import SchemaWire.Wire.Field

/-!
# Scripts

Whatever a program may do to write a payload: look at the draft, write fields, write something
after its length, and go on after a failure or not.
-/

namespace SchemaWire

/-- What a write comes to from a draft on, and what it makes of the draft. -/
def Writes.outcome (write : Writes Unit) (draft : Draft) : Except Fault Unit × Draft :=
  match write draft with
  | .ok () after => (.ok (), after)
  | .error fault after => (.error fault, after)

/-- A failure as the outcome of a write, so that others may follow it. -/
def Writes.attempt (write : Writes Unit) : Writes (Except Fault Unit) := fun draft =>
  match write draft with
  | .ok () draft => .ok (.ok ()) draft
  | .error fault draft => .ok (.error fault) draft

/-- A program that writes.  What it does next may depend on all that it has been told. -/
inductive Script where
  /-- Succeed or fail. -/
  | done (result : Except Fault Unit)
  /-- Look at the draft. -/
  | look (next : Draft → Script)
  /-- Write a field. -/
  | field (item : Field) (next : Except Fault Unit → Script)
  /-- Write after its length what another program writes. -/
  | lengthPrefixed (body : Script) (next : Except Fault Unit → Script)

namespace Script

/-- What a program writes. -/
def perform : Script → Writes Unit
  | .done result => Writes.ofExcept result
  | .look next => do
      let draft ← get
      (next draft).perform
  | .field item next => do
      let outcome ← Writes.attempt item.write
      (next outcome).perform
  | .lengthPrefixed body next => do
      let outcome ← Writes.attempt (Writes.lengthPrefixed body.perform)
      (next outcome).perform

/-- The drafts that a program goes through, from the one that it begins with to the one that it
leaves.  Those that the body of a length goes through are among them, also if the body fails. -/
def drafts : Script → Draft → List Draft
  | .done _, draft => [draft]
  | .look next, draft => (next draft).drafts draft
  | .field item next, draft =>
      let (outcome, after) := item.write.outcome draft
      draft :: (next outcome).drafts after
  | .lengthPrefixed body next, draft =>
      let inner := match Writes.int32 0 draft with
        | .ok () placed => body.drafts placed
        | .error _ _ => []
      let (outcome, after) := (Writes.lengthPrefixed body.perform).outcome draft
      draft :: (inner ++ (next outcome).drafts after)

end Script
end SchemaWire
