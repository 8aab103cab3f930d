import SchemaWire.Proofs.Wire.Taking
import SchemaWire.Wire.Routine

/-!
# Reads only move forward

Whatever is read and whether it fails or not, the cursor stops at the position where it was or
further on, and the bytes on both sides of it are still those of the payload.  This is kept by the
one primitive that moves a cursor, and so by every program that is made of reads.
-/

namespace SchemaWire

open Fallible

namespace Cursor

variable {start middle stop : Cursor} {front back bytes : List UInt8}

/-- A cursor goes over bytes from one position to another. -/
structure Passes (start : Cursor) (bytes : List UInt8) (stop : Cursor) : Prop where
  /-- The bytes were ahead of it. -/
  ahead : start.ahead = bytes ++ stop.ahead
  /-- Now they are behind it. -/
  behind : stop.behind = bytes.reverse ++ start.behind

theorem passes_refl (cursor : Cursor) : cursor.Passes [] cursor := by
  constructor <;> rfl

theorem Passes.trans (first : start.Passes front middle) (second : middle.Passes back stop) :
    start.Passes (front ++ back) stop := by
  constructor
  · calc
      start.ahead = front ++ (back ++ stop.ahead) := by rw [first.ahead, second.ahead]
      _ = front ++ back ++ stop.ahead := by rw [List.append_assoc]
  · calc
      stop.behind = back.reverse ++ (front.reverse ++ start.behind) := by
        rw [second.behind, first.behind]
      _ = (front ++ back).reverse ++ start.behind := by
        rw [List.reverse_append, List.append_assoc]

theorem Passes.position_eq (passes : start.Passes bytes stop) :
    stop.position = start.position + bytes.length := by
  calc
    stop.position = bytes.reverse.length + start.behind.length := by
      rw [position, passes.behind, List.length_append]
    _ = start.position + bytes.length := by
      rw [List.length_reverse, position, Nat.add_comm]

/-- The bytes that a cursor goes over are those of the payload between its positions. -/
theorem Passes.content_eq (passes : start.Passes bytes stop) : stop.content = start.content := by
  rw [content, content, passes.behind, passes.ahead]
  simp

/-- A cursor goes forward, or stays. -/
def Precedes (start stop : Cursor) : Prop :=
  ∃ bytes, start.Passes bytes stop

theorem precedes_refl (cursor : Cursor) : cursor.Precedes cursor :=
  ⟨[], passes_refl cursor⟩

theorem Precedes.trans (first : start.Precedes middle) (second : middle.Precedes stop) :
    start.Precedes stop := by
  obtain ⟨front, first⟩ := first
  obtain ⟨back, second⟩ := second
  exact ⟨front ++ back, first.trans second⟩

/-- A cursor that goes forward stays in its payload. -/
theorem Precedes.inside (precedes : start.Precedes stop) :
    stop.content = start.content ∧ stop.size = start.size ∧
      stop.position + stop.remaining = start.content.length ∧ start.position ≤ stop.position := by
  obtain ⟨bytes, passes⟩ := precedes
  have same := passes.content_eq
  refine ⟨same, ?_, ?_, ?_⟩
  · rw [← length_content, ← length_content, same]
  · rw [← same, length_content, size]
  · rw [passes.position_eq]
    exact Nat.le_add_right _ _

end Cursor

namespace Reads

variable {α β : Type} {read : Reads α} {next : α → Reads β} {known : List UInt8 → α → Prop}

/-- A read only moves a cursor forward, and be it that it fails. -/
def Moves (read : Reads α) : Prop :=
  ∀ origin : Cursor, Keeps origin.Precedes read

/-- A read that fails leaves the cursor where it was, and fails only for the number of bytes that
are left there. -/
def Stays (read : Reads α) : Prop :=
  ∀ ⦃start fault stop⦄, read start = .error fault stop →
    stop = start ∧ ∃ cause, fault = .framing cause

/-! ## Reads in a row -/

theorem moves_of_stays (given : Gives read known) (stays : Stays read) : Moves read := by
  intro origin start before
  constructor
  · intro value stop done
    obtain ⟨bytes, ahead, behind, -⟩ := given done
    exact before.trans ⟨bytes, ahead, behind⟩
  · intro fault stop failed
    rwa [(stays failed).1]

theorem moves_pure (value : α) : Moves (pure value) := by
  intro origin
  exact keeps_pure value

theorem moves_throw (fault : Fault) : Moves (throw fault : Reads α) := by
  intro origin
  exact keeps_throw fault

theorem Moves.bind (first : Moves read) (second : ∀ value, Moves (next value)) :
    Moves (read >>= next) := by
  intro origin
  exact (first origin).bind fun value => second value origin

theorem Moves.map (moves : Moves read) (view : α → β) :
    Moves (do let value ← read; pure (view value)) :=
  moves.bind fun value => moves_pure (view value)

theorem Moves.ite {condition : Prop} [Decidable condition] {other : Reads α}
    (held : Moves read) (failed : Moves other) : Moves (if condition then read else other) := by
  split
  case isTrue => exact held
  case isFalse => exact failed

theorem moves_ofExcept (result : Except Fault α) : Moves (ofExcept result) := by
  cases result with
  | ok value => exact moves_pure value
  | error fault => exact moves_throw fault

theorem Moves.outcome (moves : Moves read) (start : Cursor) :
    start.Precedes (read.outcome start).2 := by
  obtain ⟨kept, left⟩ := moves start start start.precedes_refl
  rw [Reads.outcome]
  cases ran : read start with
  | ok value stop => exact kept value stop ran
  | error fault stop => exact left fault stop ran

theorem Moves.attempt (moves : Moves read) : Moves read.attempt := by
  intro origin start before
  exact kept_of_ok rfl (before.trans (moves.outcome start))

/-! ## Items -/

theorem stays_take (access : Access) (count : Nat) : Stays (take access count) := by
  intro start fault stop failed
  rw [take] at failed
  split at failed
  case h_1 => simp at failed
  case h_2 =>
    obtain ⟨rfl, rfl⟩ := EStateM.Result.error.inj failed
    exact ⟨rfl, _, rfl⟩

theorem stays_finish : Stays finish := by
  intro start fault stop failed
  rw [finish] at failed
  split at failed
  case isTrue => simp at failed
  case isFalse =>
    obtain ⟨rfl, rfl⟩ := EStateM.Result.error.inj failed
    exact ⟨rfl, _, rfl⟩

theorem gives_finish : Gives finish fun bytes _ => bytes = [] := by
  intro start stop value done
  rw [finish] at done
  split at done
  case isFalse => simp at done
  case isTrue =>
    obtain ⟨-, rfl⟩ := EStateM.Result.ok.inj done
    exact ⟨[], rfl, rfl, rfl⟩

theorem moves_take (access : Access) (count : Nat) : Moves (take access count) :=
  moves_of_stays (gives_take access count) (stays_take access count)

theorem moves_rest : Moves rest := by
  apply moves_of_stays gives_rest
  intro start fault stop failed
  simp [rest] at failed

theorem moves_finish : Moves finish :=
  moves_of_stays gives_finish stays_finish

theorem moves_number (access : Access) (width : Nat) : Moves (number access width) :=
  (moves_take access width).map _

theorem moves_byte : Moves byte :=
  (moves_take .byte 1).map _

theorem moves_word16 : Moves word16 :=
  (moves_number .word16 2).map _

theorem moves_int32 : Moves int32 :=
  (moves_number .int32 4).map _

theorem moves_word64 : Moves word64 :=
  (moves_number .word64 8).map _

theorem moves_uuid : Moves uuid := by
  refine moves_word64.bind fun high => ?_
  exact moves_word64.map _

theorem moves_text : Moves text := by
  refine moves_int32.bind fun length => ?_
  apply Moves.ite
  · exact moves_pure ""
  · refine (moves_take .text _).bind fun bytes => ?_
    exact moves_ofExcept (textOf .field bytes)

theorem moves_byteArray : Moves byteArray := by
  refine moves_int32.bind fun length => ?_
  apply Moves.ite
  · exact moves_pure none
  · exact (moves_take .bytes _).map some

theorem moves_element : Moves element := by
  refine moves_int32.bind fun length => ?_
  apply Moves.ite
  · exact moves_pure none
  · exact (moves_take .bytes _).map some

theorem moves_integer (width : Width) : Moves (integer width) := by
  cases width with
  | byte => exact moves_byte.map _
  | int16 | word16 | int32 | word32 | int64 | word64 => exact ((moves_number _ _).map _).map _

theorem moves_count (width : Width) : Moves (count width) := by
  refine (moves_integer width).bind fun value => ?_
  split
  case h_1 => exact moves_pure _
  case h_2 => exact moves_throw _

theorem moves_numberedFrom {read : Nat → Reads α} (one : ∀ index, Moves (read index))
    (index count : Nat) (done : List α) : Moves (numberedFrom read index count done) := by
  induction count generalizing index done with
  | zero => exact moves_pure done.reverse
  | succ count ih =>
      rw [numberedFrom_succ]
      exact (one index).bind fun item => ih (index + 1) (item :: done)

theorem moves_array (width : Width) (one : Moves read) : Moves (array width read) := by
  refine (moves_count width).bind fun count => ?_
  exact moves_numberedFrom (fun _ => one) 0 count []

end Reads

open Reads

theorem Request.moves_read {α : Type} (request : Request α) : Moves request.read := by
  cases request with
  | byte => exact moves_byte
  | int8 | bool => exact moves_byte.map _
  | int16 | word16 | int32 | word32 | int64 | word64 | float32 | float64 =>
      exact (moves_number _ _).map _
  | integer width => exact moves_integer width
  | flags table width => exact (moves_integer width).map _
  | bytes length => exact moves_take .bytes length
  | skip length | sub length => exact (moves_take _ length).map _
  | uuid => exact moves_uuid
  | text => exact moves_text
  | byteArray => exact moves_byteArray
  | element => exact moves_element
  | count width => exact moves_count width
  | texts width => exact moves_array width moves_text
  | annotations => exact moves_array .word16 (moves_text.bind fun _ => moves_text.map _)
  | attributes => exact moves_array .word16 (moves_word16.bind fun _ => moves_byteArray.map _)
  | rest => exact moves_rest
  | finish => exact moves_finish

/-- Whatever a program reads, from whatever cursor, it only moves that forward. -/
theorem Routine.moves_perform {α : Type} (routine : Routine α) : Moves routine.perform := by
  induction routine with
  | done result => exact moves_ofExcept result
  | look next ih =>
      intro origin
      exact keeps_get_bind fun cursor _ => ih cursor origin
  | ask request next ih => exact request.moves_read.attempt.bind ih
  | array width item next one ih => exact (moves_array width one).attempt.bind ih
  | within inner body next _ ih => exact ih _ _

end SchemaWire
