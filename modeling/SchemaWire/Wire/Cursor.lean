import SchemaWire.Fault

/-!
# Cursors

A cursor stands between the bytes of a payload that have been read and those that have not.  A
read moves it forward over the bytes that it takes; a read that fails leaves it where the failure
came to light.  No read changes the bytes themselves.
-/

namespace SchemaWire

/-- A position in a payload. -/
structure Cursor where
  /-- The bytes before the position, the nearest first. -/
  behind : List UInt8
  /-- The bytes from the position on. -/
  ahead : List UInt8
  deriving DecidableEq, Repr

namespace Cursor

/-- The cursor at the start of a payload. -/
def ofBytes (bytes : List UInt8) : Cursor := ⟨[], bytes⟩

/-- The number of bytes before the position. -/
def position (cursor : Cursor) : Nat := cursor.behind.length

/-- The number of bytes from the position on. -/
def remaining (cursor : Cursor) : Nat := cursor.ahead.length

/-- The number of bytes in the payload. -/
def size (cursor : Cursor) : Nat := cursor.position + cursor.remaining

/-- The whole payload. -/
def content (cursor : Cursor) : List UInt8 := cursor.behind.reverse ++ cursor.ahead

/-- Whether no bytes are left. -/
def atEnd (cursor : Cursor) : Bool := cursor.ahead.isEmpty

@[simp]
theorem length_content (cursor : Cursor) : cursor.content.length = cursor.size := by
  simp [content, size, position, remaining]

end Cursor

/-- Move `count` bytes from the front of one list to the front of another, if there are that
many. -/
def pass : (count : Nat) → (behind ahead : List UInt8) → Option (List UInt8 × List UInt8)
  | 0, behind, ahead => some (behind, ahead)
  | count + 1, behind, byte :: ahead => pass count (byte :: behind) ahead
  | _ + 1, _, [] => none

theorem pass_eq (count : Nat) (behind ahead : List UInt8) :
    pass count behind ahead =
      if count ≤ ahead.length then
        some ((ahead.take count).reverse ++ behind, ahead.drop count)
      else
        none := by
  induction count generalizing behind ahead with
  | zero => simp [pass]
  | succ count ih =>
      cases ahead with
      | nil => simp [pass]
      | cons byte ahead => simp [pass, ih]

/-- A computation that reads a payload. -/
abbrev Reads (α : Type) := EStateM Fault Cursor α

namespace Reads

/-- Fail or succeed without moving. -/
def ofExcept {α : Type} : Except Fault α → Reads α
  | .ok value => pure value
  | .error fault => throw fault

/-- The next `count` bytes; `access` says what they are read for. -/
def take (access : Access) (count : Nat) : Reads (List UInt8) := fun cursor =>
  match pass count [] cursor.ahead with
  | some (taken, ahead) => .ok taken.reverse ⟨taken ++ cursor.behind, ahead⟩
  | none => .error (.framing (.short access count cursor.position cursor.remaining)) cursor

/-- Pass over `count` bytes. -/
def skip (count : Nat) : Reads Unit := do
  let _ ← take .skip count

/-- All bytes that are left. -/
def rest : Reads (List UInt8) := fun cursor =>
  .ok cursor.ahead ⟨cursor.ahead.reverseAux cursor.behind, []⟩

/-- Fail if bytes are left. -/
def finish : Reads Unit := fun cursor =>
  if cursor.atEnd then
    .ok () cursor
  else
    .error (.framing (.trailing cursor.remaining cursor.position cursor.size)) cursor

/-- Whether no bytes are left. -/
def atEnd : Reads Bool := fun cursor => .ok cursor.atEnd cursor

/-- Read `count` items from number `index` on, after the items `done` in reverse. -/
def numberedFrom {α : Type} (read : Nat → Reads α) (index : Nat) :
    (count : Nat) → (done : List α) → Reads (List α)
  | 0, done => fun cursor => .ok done.reverse cursor
  | count + 1, done => fun cursor =>
      match read index cursor with
      | .ok item cursor => numberedFrom read (index + 1) count (item :: done) cursor
      | .error fault cursor => .error fault cursor

/-- Read `count` items, each by its number.  The first failure ends it. -/
def numbered {α : Type} (read : Nat → Reads α) (count : Nat) : Reads (List α) :=
  numberedFrom read 0 count []

/-- Read `count` items.  The first failure ends it. -/
def repeated {α : Type} (read : Reads α) (count : Nat) : Reads (List α) :=
  numbered (fun _ => read) count

/-- Read a payload from its start. -/
def run {α : Type} (read : Reads α) (bytes : List UInt8) : Except Fault α :=
  match read (Cursor.ofBytes bytes) with
  | .ok value _ => .ok value
  | .error fault _ => .error fault

/-- Read the whole of a payload. -/
def whole {α : Type} (read : Reads α) : Reads α := do
  let value ← read
  finish
  pure value

end Reads
end SchemaWire
