import SchemaWire.Proofs.Wire.Delimiting
import SchemaWire.Proofs.Wire.Moving

/-!
# The bounds of a reader

A reader is bound to its payload.  It goes forward only; what it answers comes from the bytes that
it goes over, whatever follows them; where it fails, it stops at a place that is known from what was
asked for; and a reader over a part of a payload has that part and nothing else.
-/

namespace SchemaWire

open Fallible Reads

namespace Reads

variable {α β : Type} {read : Reads α} {next : α → Reads β} {start stop : Cursor} {fault : Fault}

/-- A read that succeeds goes by the bytes that it takes: between any others, they are taken again,
for the same value. -/
def Local (read : Reads α) : Prop :=
  Gives read (Takes read)

/-! ## Reads that go by their bytes -/

theorem Regular.isLocal (regular : Regular read) : Local read := by
  refine regular.gives.mono fun bytes value delimits => ?_
  exact delimits.takes

theorem local_ofExcept (result : Except Fault α) : Local (ofExcept result) := by
  apply gives_ofExcept
  intro value done
  exact takes_ofExcept done

theorem Local.bind (first : Local read) (second : ∀ value, Local (next value)) :
    Local (read >>= next) := by
  refine Gives.bind first fun front item taken => ?_
  refine (second item).mono fun back value more => ?_
  exact taken.bind more

theorem local_numberedFrom {read : Nat → Reads α} (one : ∀ index, Local (read index))
    (index count : Nat) (done : List α) : Local (numberedFrom read index count done) := by
  induction count generalizing index done with
  | zero => exact local_ofExcept (.ok done.reverse)
  | succ count ih =>
      rw [numberedFrom_succ]
      exact (one index).bind fun item => ih (index + 1) (item :: done)

theorem local_array (width : Width) (one : Local read) : Local (array width read) := by
  refine (regular_count width).isLocal.bind fun count => ?_
  exact local_numberedFrom (fun _ => one) 0 count []

/-- To give up after a failure is not to take note of it. -/
theorem attempt_bind {next : Except Fault α → Reads β}
    (givesUp : ∀ fault, next (.error fault) = throw fault) :
    read.attempt >>= next = read >>= fun value => next (.ok value) := by
  funext start
  cases ran : read start with
  | ok value stop =>
      have noted : read.attempt start = .ok (.ok value) stop := by
        rw [attempt, outcome, ran]
      rw [bind_apply_ok noted, bind_apply_ok ran]
  | error fault stop =>
      have noted : read.attempt start = .ok (.error fault) stop := by
        rw [attempt, outcome, ran]
      rw [bind_apply_ok noted, bind_apply_error ran, givesUp, throw_apply]

/-! ## Where reads fail -/

theorem Stays.map (stays : Stays read) (view : α → β) :
    Stays (do let value ← read; pure (view value)) := by
  intro start fault stop failed
  rcases bind_apply_eq_error.1 failed with first | ⟨value, middle, -, second⟩
  · exact stays first
  · simp at second

theorem Stays.ite {condition : Prop} [Decidable condition] {other : Reads α}
    (held : Stays read) (failed : Stays other) : Stays (if condition then read else other) := by
  split
  case isTrue => exact held
  case isFalse => exact failed

theorem stays_pure (value : α) : Stays (pure value) := by
  intro start fault stop failed
  simp at failed

theorem stays_number (access : Access) (width : Nat) : Stays (number access width) :=
  (stays_take access width).map _

theorem stays_int32 : Stays int32 :=
  (stays_number .int32 4).map _

theorem stays_word64 : Stays word64 :=
  (stays_number .word64 8).map _

theorem stays_integer (width : Width) : Stays (integer width) := by
  cases width with
  | byte => exact ((stays_take .byte 1).map _).map _
  | int16 | word16 | int32 | word32 | int64 | word64 => exact ((stays_number _ _).map _).map _

/-- An identifier whose first half is there is half taken. -/
theorem stop_of_uuid (failed : uuid start = .error fault stop) :
    stop = start ∨ ∃ high, high.length = 8 ∧ start.Passes high stop := by
  rcases bind_apply_eq_error.1 failed with first | ⟨high, middle, opened, second⟩
  · exact .inl (stays_word64 first).1
  · obtain ⟨bytes, ahead, behind, eight⟩ := gives_word64 opened
    obtain ⟨rfl, -⟩ := stays_word64.map _ second
    exact .inr ⟨bytes, eight, ahead, behind⟩

/-- A count that is none is known as such only once it has been taken. -/
theorem stop_of_count {width : Width} (failed : count width start = .error fault stop) :
    stop = start ∨ ∃ number misfit, integer width start = .ok number stop ∧
      fault = .framing (.count width number misfit) := by
  rcases bind_apply_eq_error.1 failed with first | ⟨number, middle, opened, second⟩
  · exact .inl (stays_integer width first).1
  · cases counted : Misfit.of? 0 Misfit.countMax number with
    | none => simp [counted] at second
    | some misfit =>
        rw [counted] at second
        obtain ⟨rfl, rfl⟩ := EStateM.Result.error.inj second
        exact .inr ⟨number, misfit, opened, rfl⟩

/-- Nothing has been taken, or the four bytes of a length, and there are fewer bytes than needed. -/
def Announced (start : Cursor) (fault : Fault) (stop : Cursor) : Prop :=
  (stop = start ∨ ∃ length, length.length = 4 ∧ start.Passes length stop) ∧
    ∃ cause, fault = .framing cause

/-- The bytes of a text have been taken after their length, and they are no text. -/
def Misspelt (start : Cursor) (fault : Fault) (stop : Cursor) : Prop :=
  ∃ length content flaw, length.length = 4 ∧ content.length = BigEndian.toNat length ∧
    start.Passes (length ++ content) stop ∧ Utf8.decode content = .error flaw ∧
    fault = .decode (.text .field flaw)

/-- The four bytes of a length are those of a number with sign. -/
theorem gives_length :
    Gives int32 fun bytes length => bytes.length = 4 ∧
      (0 < length → length.toInt.toNat = BigEndian.toNat bytes) := by
  refine Gives.map (Gives.map ((gives_take .int32 4).mono ?_))
  rintro _ taken ⟨rfl, four⟩
  refine ⟨four, ?_⟩
  intro positive
  have below : BigEndian.toNat taken < 4294967296 := by
    have bound := BigEndian.toNat_lt taken
    rwa [four] at bound
  have shown := BigEndian.toInt_toInt32_ofNat (BigEndian.toNat taken) below
  rw [Int32.lt_iff_toInt_lt, Int32.toInt_zero] at positive
  split at shown <;> omega

/-- A read that begins with a length, and fails for want of it or of what follows it. -/
theorem announced_of_length {next : Int32 → Reads α} (stays : ∀ length, Stays (next length))
    (failed : (int32 >>= next) start = .error fault stop) : Announced start fault stop := by
  rcases bind_apply_eq_error.1 failed with first | ⟨length, middle, opened, second⟩
  · obtain ⟨same, framed⟩ := stays_int32 first
    exact ⟨.inl same, framed⟩
  · obtain ⟨bytes, ahead, behind, four⟩ := gives_int32 opened
    obtain ⟨rfl, framed⟩ := stays length second
    exact ⟨.inr ⟨bytes, four, ahead, behind⟩, framed⟩

theorem announced_of_byteArray (failed : byteArray start = .error fault stop) :
    Announced start fault stop := by
  refine announced_of_length (fun length => ?_) failed
  apply Stays.ite
  · exact stays_pure none
  · exact (stays_take .bytes _).map some

theorem announced_of_element (failed : element start = .error fault stop) :
    Announced start fault stop := by
  refine announced_of_length (fun length => ?_) failed
  apply Stays.ite
  · exact stays_pure none
  · exact (stays_take .bytes _).map some

theorem stop_of_text (failed : text start = .error fault stop) :
    Announced start fault stop ∨ Misspelt start fault stop := by
  rcases bind_apply_eq_error.1 failed with first | ⟨length, middle, opened, second⟩
  · obtain ⟨same, framed⟩ := stays_int32 first
    exact .inl ⟨.inl same, framed⟩
  · obtain ⟨front, ahead, behind, four, announced⟩ := gives_length opened
    have begun : start.Passes front middle := ⟨ahead, behind⟩
    split at second
    case isTrue => simp at second
    case isFalse positive =>
      rcases bind_apply_eq_error.1 second with short | ⟨content, last, taken, misspelt⟩
      · obtain ⟨rfl, framed⟩ := stays_take _ _ short
        exact .inl ⟨.inr ⟨front, four, begun⟩, framed⟩
      · obtain ⟨_, ahead, behind, rfl, counted⟩ := gives_take _ _ taken
        refine .inr ⟨front, content, ?_⟩
        rw [textOf] at misspelt
        cases decoded : Utf8.decode content with
        | ok text => simp [decoded, ofExcept] at misspelt
        | error flaw =>
            rw [decoded] at misspelt
            obtain ⟨rfl, rfl⟩ := EStateM.Result.error.inj misspelt
            have size : content.length = BigEndian.toNat front := by
              rw [counted, announced (Int32.not_le.1 positive)]
            exact ⟨flaw, four, size, begun.trans ⟨ahead, behind⟩, rfl, rfl⟩

/-- A reader over a part of a payload has the bytes of that part. -/
theorem sub_eq_ok {length : Nat} {inner : Cursor} (opened : sub length start = .ok inner stop) :
    ∃ slice, slice.length = length ∧ start.Passes slice stop ∧ inner = Cursor.ofBytes slice := by
  have given : Gives (sub length) fun slice inner =>
      slice.length = length ∧ inner = Cursor.ofBytes slice := by
    refine Gives.map ((gives_take .bytes length).mono ?_)
    rintro _ taken ⟨rfl, long⟩
    exact ⟨long, rfl⟩
  obtain ⟨slice, ahead, behind, long, whole⟩ := given opened
  exact ⟨slice, long, ⟨ahead, behind⟩, whole⟩

end Reads

/-! ## Requests -/

namespace Request

variable {α : Type}

/-- A request that is answered from the next bytes, and not from where the payload ends. -/
def IsLocal : {α : Type} → Request α → Prop
  | _, .rest | _, .finish => False
  | _, _ => True

/-- A request for a number of bytes that is known beforehand, or for none. -/
def IsFixed : {α : Type} → Request α → Prop
  | _, .uuid | _, .text | _, .byteArray | _, .element | _, .count _ | _, .texts _
  | _, .annotations | _, .attributes | _, .rest => False
  | _, _ => True

theorem regular_read (request : Request α) (isLocal : request.IsLocal) : Regular request.read := by
  cases request with
  | byte => exact regular_byte
  | int8 | bool => exact regular_byte.map _
  | int16 | word16 | int32 | word32 | int64 | word64 | float32 | float64 =>
      exact (regular_number _ _).map _
  | integer width => exact regular_integer width
  | flags table width => exact table.regular_read width
  | bytes length => exact regular_take .bytes length
  | skip length | sub length => exact (regular_take _ length).map _
  | uuid => exact regular_uuid
  | text => exact regular_text
  | byteArray => exact regular_byteArray
  | element => exact regular_element
  | count width => exact regular_count width
  | texts width => exact regular_array width regular_text
  | annotations => exact regular_array .word16 NamedText.regular_read
  | attributes => exact regular_array .word16 Attribute.regular_read
  | rest | finish => exact isLocal.elim

theorem stays_read (request : Request α) (fixed : request.IsFixed) : Stays request.read := by
  cases request with
  | byte => exact (stays_take .byte 1).map _
  | int8 | bool => exact ((stays_take .byte 1).map _).map _
  | int16 | word16 | int32 | word32 | int64 | word64 | float32 | float64 =>
      exact (stays_number _ _).map _
  | integer width => exact stays_integer width
  | flags table width => exact (stays_integer width).map _
  | bytes length => exact stays_take .bytes length
  | skip length | sub length => exact (stays_take _ length).map _
  | finish => exact stays_finish
  | uuid | text | byteArray | element | count | texts | annotations | attributes | rest =>
      exact fixed.elim

end Request

/-! ## Programs -/

/-- A program that goes straight on: it gives up at the first failure, and goes neither by the
position nor by what is left. -/
inductive Routine.Straight : {α : Type} → Routine α → Prop where
  | done {α : Type} (result : Except Fault α) : Straight (.done result)
  | ask {α β : Type} {request : Request β} {next : Except Fault β → Routine α}
      (isLocal : request.IsLocal) (givesUp : ∀ fault, next (.error fault) = .done (.error fault))
      (goesOn : ∀ value, Straight (next (.ok value))) : Straight (.ask request next)
  | array {α β : Type} {width : Width} {item : Routine β}
      {next : Except Fault (List β) → Routine α} (one : Straight item)
      (givesUp : ∀ fault, next (.error fault) = .done (.error fault))
      (goesOn : ∀ items, Straight (next (.ok items))) : Straight (.array width item next)
  | within {α β : Type} {inner : Cursor} {body : Routine β}
      {next : Except Fault β → Cursor → Routine α}
      (goesOn : ∀ outcome stop, Straight (next outcome stop)) : Straight (.within inner body next)

theorem Routine.Straight.local_perform {α : Type} {routine : Routine α}
    (straight : routine.Straight) : Local routine.perform := by
  induction straight with
  | done result => exact local_ofExcept result
  | @ask _ _ request next isLocal givesUp goesOn ih =>
      have thrown (fault : Fault) : (next (.error fault)).perform = throw fault := by
        rw [givesUp fault]
        rfl
      rw [perform, attempt_bind thrown]
      exact (request.regular_read isLocal).isLocal.bind ih
  | @array _ _ width item next _ givesUp goesOn one ih =>
      have thrown (fault : Fault) : (next (.error fault)).perform = throw fault := by
        rw [givesUp fault]
        rfl
      rw [perform, attempt_bind thrown]
      exact (local_array width one).bind ih
  | within goesOn ih => exact ih _ _

/-- Whatever a program does with a reader, failures and readers over parts included: the payload
stays what it is, the position never goes back, and what is behind it and what is left are the
whole.  What is read successfully, or passed over, or opened, depends on the bytes between the old
position and the new one alone, unless all that is left is asked for; so does a list if its items
are read by a program that does not look further.  A request for a known number of bytes that fails
does not move; an identifier may be half taken; a text, a byte string or an element leaves the
reader where it was or after the length, and only bytes that are no text are taken all the same.  A
reader over a part has the bytes of the part and keeps to them. -/
theorem reader_bounds :
    (∀ (α : Type) (routine : Routine α) (start : Cursor),
      let stop := (routine.perform.outcome start).2
      stop.content = start.content ∧ stop.size = start.size ∧
        stop.position + stop.remaining = start.content.length ∧
        start.position ≤ stop.position) ∧
    (∀ (α : Type) (request : Request α), request.IsLocal → Local request.read) ∧
    (∀ (α : Type) (width : Width) (item : Routine α), item.Straight →
      Local (array width item.perform)) ∧
    (∀ (α : Type) (request : Request α), request.IsFixed → Stays request.read) ∧
    (∀ start fault stop, uuid start = .error fault stop →
      stop = start ∨ ∃ high, high.length = 8 ∧ start.Passes high stop) ∧
    (∀ start fault stop, text start = .error fault stop →
      Announced start fault stop ∨ Misspelt start fault stop) ∧
    (∀ start fault stop, byteArray start = .error fault stop → Announced start fault stop) ∧
    (∀ start fault stop, element start = .error fault stop → Announced start fault stop) ∧
    (∀ width start fault stop, count width start = .error fault stop →
      stop = start ∨ ∃ number misfit, integer width start = .ok number stop ∧
        fault = .framing (.count width number misfit)) ∧
    ∀ length start inner stop, sub length start = .ok inner stop →
      ∃ slice, slice.length = length ∧ start.Passes slice stop ∧ inner = Cursor.ofBytes slice ∧
        ∀ (α : Type) (routine : Routine α), (routine.perform.outcome inner).2.content = slice := by
  refine ⟨?inside, ?requests, ?lists, ?fixed, ?identifiers, ?texts, ?strings, ?elements, ?counts,
    ?parts⟩
  case inside =>
    intro α routine start
    exact (routine.moves_perform.outcome start).inside
  case requests =>
    intro α request isLocal
    exact (request.regular_read isLocal).isLocal
  case lists =>
    intro α width item straight
    exact local_array width straight.local_perform
  case fixed =>
    intro α request fixed
    exact request.stays_read fixed
  case identifiers =>
    intro start fault stop failed
    exact stop_of_uuid failed
  case texts =>
    intro start fault stop failed
    exact stop_of_text failed
  case strings =>
    intro start fault stop failed
    exact announced_of_byteArray failed
  case elements =>
    intro start fault stop failed
    exact announced_of_element failed
  case counts =>
    intro width start fault stop failed
    exact stop_of_count failed
  case parts =>
    intro length start inner stop opened
    obtain ⟨slice, long, passes, rfl⟩ := sub_eq_ok opened
    refine ⟨slice, long, passes, rfl, ?_⟩
    intro α routine
    exact (routine.moves_perform.outcome (Cursor.ofBytes slice)).inside.1

/-- A program that reads a byte and then a text. -/
def taggedText : Routine (UInt8 × String) :=
  .ask .byte fun
    | .error fault => .done (.error fault)
    | .ok tag => .ask .text fun
      | .error fault => .done (.error fault)
      | .ok text => .done (.ok (tag, text))

theorem straight_taggedText : taggedText.Straight := by
  refine .ask trivial ?_ ?_
  · intro fault
    rfl
  · intro tag
    refine .ask trivial ?_ ?_
    · intro fault
      rfl
    · intro text
      exact .done _

/-- A byte that is no text is taken before this is noticed; of an identifier with four bytes too few
one half is; and a reader over two bytes of three that asks for all that is left has those two. -/
theorem reader_bounds_sample :
    Local (array .word16 taggedText.perform) ∧
      (∃ fault stop, text (Cursor.ofBytes [0, 0, 0, 1, 0xFF, 7]) = .error fault stop ∧
        stop.position = 5 ∧
        (Announced (Cursor.ofBytes [0, 0, 0, 1, 0xFF, 7]) fault stop ∨
          Misspelt (Cursor.ofBytes [0, 0, 0, 1, 0xFF, 7]) fault stop)) ∧
      (∃ fault stop, uuid (Cursor.ofBytes (List.replicate 12 0)) = .error fault stop ∧
        ∃ high, high.length = 8 ∧ (Cursor.ofBytes (List.replicate 12 0)).Passes high stop) ∧
      ∃ inner stop, sub 2 (Cursor.ofBytes [1, 2, 3]) = .ok inner stop ∧
        ((Routine.ask .rest .done).perform.outcome inner).2.content = [1, 2] := by
  obtain ⟨-, -, lists, -, identifiers, texts, -, -, -, parts⟩ := reader_bounds
  refine ⟨lists _ .word16 taggedText straight_taggedText, ⟨_, _, rfl, rfl, texts _ _ _ rfl⟩,
    ⟨_, _, rfl, ?_⟩, ⟨_, _, rfl, ?_⟩⟩
  · exact (identifiers _ _ _ rfl).resolve_left (by decide)
  · obtain ⟨slice, two, passes, same, kept⟩ := parts 2 (Cursor.ofBytes [1, 2, 3]) _ _ rfl
    obtain rfl : [1, 2] = slice := congrArg Cursor.ahead same
    exact kept _ _

end SchemaWire
