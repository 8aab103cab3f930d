import SchemaWire.Proofs.Fallible
import SchemaWire.Wire.Draft
import SchemaWire.Wire.Reading
import Mathlib.Data.List.Forall2

/-!
# What reads have taken

A read that succeeds has taken bytes off the front of what was ahead, and nothing else has changed.
What is known of these bytes and of the value comes from the parts of the read: the bytes of two
reads in a row stand side by side, and those of an element hold its length and its content.
-/

namespace SchemaWire
namespace Reads

open Fallible

variable {α β : Type} {read : Reads α} {known : List UInt8 → α → Prop}

/-- A read that succeeds has taken bytes off the front, of which something is known together with
the value that it gives. -/
def Gives (read : Reads α) (known : List UInt8 → α → Prop) : Prop :=
  ∀ ⦃start stop value⦄, read start = .ok value stop →
    ∃ bytes, start.ahead = bytes ++ stop.ahead ∧ stop.behind = bytes.reverse ++ start.behind ∧
      known bytes value

/-! ## Reads in a row -/

theorem Gives.mono {less : List UInt8 → α → Prop} (given : Gives read known)
    (weaker : ∀ bytes value, known bytes value → less bytes value) : Gives read less := by
  intro start stop value done
  obtain ⟨bytes, front, back, sure⟩ := given done
  exact ⟨bytes, front, back, weaker bytes value sure⟩

theorem gives_pure {value : α} (sure : known [] value) : Gives (pure value) known := by
  intro start stop result done
  obtain ⟨rfl, rfl⟩ := EStateM.Result.ok.inj done
  exact ⟨[], rfl, rfl, sure⟩

theorem gives_throw (fault : Fault) : Gives (throw fault) known := by
  intro start stop value done
  simp at done

theorem Gives.bind {next : α → Reads β} {first : List UInt8 → α → Prop}
    {whole : List UInt8 → β → Prop} (head : Gives read first)
    (tail : ∀ front item, first front item →
      Gives (next item) fun back value => whole (front ++ back) value) :
    Gives (read >>= next) whole := by
  intro start stop value done
  obtain ⟨item, middle, opened, closed⟩ := bind_apply_eq_ok.1 done
  obtain ⟨front, startAhead, middleBehind, begun⟩ := head opened
  obtain ⟨back, middleAhead, stopBehind, ended⟩ := tail front item begun closed
  refine ⟨front ++ back, ?_, ?_, ended⟩
  · rw [startAhead, middleAhead, List.append_assoc]
  · calc
      stop.behind = back.reverse ++ (front.reverse ++ start.behind) := by
        rw [stopBehind, middleBehind]
      _ = (front ++ back).reverse ++ start.behind := by
        rw [List.reverse_append, List.append_assoc]

/-- A read whose value is seen as another takes what it took before. -/
theorem Gives.map {view : α → β} {seen : List UInt8 → β → Prop}
    (given : Gives read fun bytes value => seen bytes (view value)) :
    Gives (do let value ← read; pure (view value)) seen := by
  refine given.bind fun front value sure => ?_
  apply gives_pure
  rwa [List.append_nil]

theorem gives_ofExcept_bind {result : Except Fault α} {next : α → Reads β}
    {whole : List UInt8 → β → Prop}
    (tail : ∀ value, result = .ok value → Gives (next value) whole) :
    Gives (do let value ← ofExcept result; next value) whole := by
  cases result with
  | ok value => exact tail value rfl
  | error fault =>
      intro start stop value done
      have failed : (ofExcept (.error fault) : Reads α) start = .error fault start := rfl
      rw [bind_apply_error failed] at done
      simp at done

theorem gives_ofExcept {result : Except Fault α}
    (sure : ∀ value, result = .ok value → known [] value) :
    Gives (ofExcept result) known := by
  cases result with
  | ok value => exact gives_pure (sure value rfl)
  | error fault => exact gives_throw fault

/-- What is read from a payload as a whole is what is read from it, with nothing left. -/
theorem run_whole_eq_ok {bytes : List UInt8} {value : α} :
    (whole read).run bytes = .ok value ↔
      ∃ stop, read (Cursor.ofBytes bytes) = .ok value stop ∧ stop.ahead = [] := by
  constructor
  · intro done
    rw [run] at done
    split at done
    case h_2 => simp at done
    case h_1 result stop ran =>
      obtain rfl := Except.ok.inj done
      obtain ⟨found, middle, opened, closed⟩ := bind_apply_eq_ok.1 ran
      obtain ⟨_, last, finished, ended⟩ := bind_apply_eq_ok.1 closed
      obtain ⟨rfl, rfl⟩ := EStateM.Result.ok.inj ended
      refine ⟨middle, opened, ?_⟩
      rw [finish] at finished
      split at finished
      case isFalse => simp at finished
      case isTrue ended => exact List.isEmpty_iff.1 ended
  · rintro ⟨⟨behind, ahead⟩, opened, rfl⟩
    have ended : whole read (Cursor.ofBytes bytes) = .ok value ⟨behind, []⟩ := by
      rw [whole, bind_apply_ok opened]
      rfl
    rw [run, ended]

/-- What is read from a payload as a whole takes the whole payload. -/
theorem Gives.of_run_whole (given : Gives read known) {bytes : List UInt8} {value : α}
    (done : (whole read).run bytes = .ok value) : known bytes value := by
  obtain ⟨stop, opened, nothing⟩ := run_whole_eq_ok.1 done
  obtain ⟨taken, ahead, -, sure⟩ := given opened
  rw [nothing, List.append_nil] at ahead
  rwa [show bytes = taken from ahead]

/-! ## Bytes and numbers -/

theorem gives_take (access : Access) (count : Nat) :
    Gives (take access count) fun bytes value => value = bytes ∧ bytes.length = count := by
  intro start stop value done
  rw [take, pass_eq] at done
  by_cases enough : count ≤ start.ahead.length
  · rw [if_pos enough] at done
    obtain ⟨rfl, rfl⟩ := EStateM.Result.ok.inj done
    refine ⟨start.ahead.take count, ?_, ?_, ?_, ?_⟩
    · exact (List.take_append_drop count start.ahead).symm
    · simp
    · simp
    · rw [List.length_take, Nat.min_eq_left enough]
  · rw [if_neg enough] at done
    simp at done

theorem gives_skip (count : Nat) : Gives (skip count) fun bytes _ => bytes.length = count := by
  apply Gives.map
  refine (gives_take .skip count).mono ?_
  rintro bytes value ⟨-, long⟩
  exact long

theorem gives_rest : Gives rest fun bytes value => value = bytes := by
  intro start stop value done
  obtain ⟨rfl, rfl⟩ := EStateM.Result.ok.inj done
  exact ⟨start.ahead, by simp, by simp [List.reverseAux_eq], rfl⟩

theorem gives_atEnd : Gives atEnd fun bytes _ => bytes = [] := by
  intro start stop value done
  obtain ⟨rfl, rfl⟩ := EStateM.Result.ok.inj done
  exact ⟨[], rfl, rfl, rfl⟩

theorem gives_number (access : Access) (width : Nat) :
    Gives (number access width) fun bytes _ => bytes.length = width := by
  apply Gives.map
  refine (gives_take access width).mono ?_
  rintro bytes value ⟨-, long⟩
  exact long

theorem gives_byte : Gives byte fun bytes _ => bytes.length = 1 := by
  apply Gives.map
  refine (gives_take .byte 1).mono ?_
  rintro bytes value ⟨-, long⟩
  exact long

theorem gives_int16 : Gives int16 fun bytes _ => bytes.length = 2 :=
  Gives.map (gives_number .int16 2)

theorem gives_int32 : Gives int32 fun bytes _ => bytes.length = 4 :=
  Gives.map (gives_number .int32 4)

theorem gives_int64 : Gives int64 fun bytes _ => bytes.length = 8 :=
  Gives.map (gives_number .int64 8)

theorem gives_word64 : Gives word64 fun bytes _ => bytes.length = 8 :=
  Gives.map (gives_number .word64 8)

theorem gives_float32 : Gives float32 fun bytes _ => bytes.length = 4 :=
  Gives.map (gives_number .float32 4)

theorem gives_float64 : Gives float64 fun bytes _ => bytes.length = 8 :=
  Gives.map (gives_number .float64 8)

theorem gives_uuid : Gives uuid fun bytes _ => bytes.length = 16 := by
  refine gives_word64.bind fun front high first => Gives.map (gives_word64.mono ?_)
  intro back low second
  rw [List.length_append, first, second]

/-! ## Elements and lists of them -/

theorem gives_element :
    Gives element fun bytes payload => bytes.length = byteArraySize payload := by
  refine gives_int32.bind fun front length first => ?_
  split
  case isTrue => exact gives_pure (by simp [first, byteArraySize])
  case isFalse =>
    refine Gives.map ((gives_take .bytes _).mono ?_)
    rintro back payload ⟨rfl, -⟩
    rw [List.length_append, first, byteArraySize, Option.getD_some]

theorem gives_byteArray :
    Gives byteArray fun bytes payload => bytes.length = byteArraySize payload := by
  refine gives_int32.bind fun front length first => ?_
  split
  case isTrue => exact gives_pure (by simp [first, byteArraySize])
  case isFalse =>
    refine Gives.map ((gives_take .bytes _).mono ?_)
    rintro back payload ⟨rfl, -⟩
    rw [List.length_append, first, byteArraySize, Option.getD_some]

theorem numberedFrom_succ (read : Nat → Reads α) (index count : Nat) (done : List α) :
    numberedFrom read index (count + 1) done = (do
      let item ← read index
      numberedFrom read (index + 1) count (item :: done)) := by
  funext cursor
  cases ran : read index cursor with
  | ok item middle => simp only [numberedFrom, ran, bind_apply_ok ran]
  | error fault middle => simp only [numberedFrom, ran, bind_apply_error ran]

theorem gives_numberedFrom {read : Nat → Reads α} (one : ∀ index, Gives (read index) known)
    (index count : Nat) (done : List α) :
    Gives (numberedFrom read index count done) fun bytes items =>
      ∃ chunks more, bytes = chunks.flatten ∧ items = done.reverse ++ more ∧
        more.length = count ∧ List.Forall₂ known chunks more := by
  induction count generalizing index done with
  | zero => exact gives_pure ⟨[], [], rfl, (List.append_nil _).symm, rfl, .nil⟩
  | succ count ih =>
      rw [numberedFrom_succ]
      refine (one index).bind fun front item head => (ih (index + 1) (item :: done)).mono ?_
      rintro back items ⟨chunks, more, rfl, rfl, counted, others⟩
      refine ⟨front :: chunks, item :: more, rfl, ?_, ?_, .cons head others⟩
      · simp
      · rw [List.length_cons, counted]

/-- Items one after the other: the bytes of each and their number. -/
theorem gives_numbered {read : Nat → Reads α} (one : ∀ index, Gives (read index) known)
    (count : Nat) :
    Gives (numbered read count) fun bytes items =>
      ∃ chunks, bytes = chunks.flatten ∧ items.length = count ∧
        List.Forall₂ known chunks items := by
  refine (gives_numberedFrom one 0 count []).mono ?_
  rintro bytes items ⟨chunks, more, rfl, rfl, counted, each⟩
  exact ⟨chunks, rfl, counted, each⟩

end Reads
end SchemaWire
