import SchemaWire.Flag
import SchemaWire.Letter
import SchemaWire.Proofs.Wire.Reading
import SchemaWire.Proofs.Wire.Taking
import SchemaWire.Wire.Annotated

/-!
# Bytes that tell where they end

A regular read goes by the bytes that it takes and by nothing else: whatever stands before and
after them, it takes the same bytes for the same value, and it runs short on any part of them from
which the end is missing.  So a payload that is read as a whole can be neither cut nor extended.
All reads that are built from numbers, texts, byte strings and lists of them are regular.
-/

namespace SchemaWire

/-- What is wrong lies in the bytes that were received. -/
def Fault.LiesInBytes : Fault → Prop
  | .framing _ | .decode _ | .resolution _ _ | .unsupportedShape _ _
  | .protocol (.authenticationStatus _) | .protocol (.cardinality _) => True
  | _ => False

/-- A result that is a failure fails for what is wrong with received bytes. -/
def BlamesBytes {α : Type} (result : Except Fault α) : Prop :=
  ∀ ⦃fault⦄, result = .error fault → fault.LiesInBytes

theorem blamesBytes_ok {α : Type} (value : α) : BlamesBytes (.ok value) := by
  intro fault failed
  simp at failed

theorem blamesBytes_error {α : Type} {fault : Fault} (lies : fault.LiesInBytes) :
    BlamesBytes (.error fault : Except Fault α) := by
  rintro _ ⟨⟩
  exact lies

theorem Cardinality.blamesBytes_ofByte (byte : UInt8) : BlamesBytes (Cardinality.ofByte byte) := by
  intro fault failed
  have unknown : fault = .protocol (.cardinality byte) := by grind [Cardinality.ofByte]
  rw [unknown]
  trivial

namespace Reads

open Fallible

variable {α β : Type} {read : Reads α} {next : α → Reads β} {bytes front back : List UInt8}

/-- A read runs short on a part of some bytes from which the end is missing. -/
def RunsShort (read : Reads α) (bytes : List UInt8) : Prop :=
  ∀ behind front back, front ++ back = bytes → back ≠ [] →
    ∃ cause stop, read ⟨behind, front⟩ = .error (.framing cause) stop

/-- Bytes are read as a value whatever follows them, and not without the last of them. -/
structure Delimits (read : Reads α) (bytes : List UInt8) (value : α) : Prop where
  takes : Takes read bytes value
  runsShort : RunsShort read bytes

/-- A read goes by the bytes that it takes, and fails for what is wrong with bytes. -/
structure Regular (read : Reads α) : Prop where
  gives : Gives read (Delimits read)
  blames : ∀ ⦃start stop fault⦄, read start = .error fault stop → fault.LiesInBytes

/-! ## Delimited bytes in a row -/

theorem delimits_pure (value : α) : Delimits (pure value) [] value where
  takes := takes_pure value
  runsShort := by
    intro behind front back joined missing
    exact absurd (List.append_eq_nil_iff.1 joined).2 missing

theorem Delimits.bind {item : α} {value : β} (head : Delimits read front item)
    (tail : Delimits (next item) back value) : Delimits (read >>= next) (front ++ back) value where
  takes := head.takes.bind tail.takes
  runsShort := by
    intro behind part rest joined missing
    -- The cut is in the bytes of the first read, or those are whole and it is in the others.
    rcases List.append_eq_append_iff.1 joined with ⟨lost, whole, others⟩ | ⟨more, whole, others⟩
    · by_cases ended : lost = []
      · subst ended
        rw [List.append_nil] at whole
        subst whole
        obtain ⟨cause, stop, failed⟩ := tail.runsShort (front.reverse ++ behind) [] rest
          (by simpa using others) missing
        have opened := head.takes behind []
        rw [List.append_nil] at opened
        refine ⟨cause, stop, ?_⟩
        rw [bind_apply_ok opened, failed]
      · obtain ⟨cause, stop, failed⟩ := head.runsShort behind part lost whole.symm ended
        exact ⟨cause, stop, bind_apply_error failed⟩
    · obtain ⟨cause, stop, failed⟩ :=
        tail.runsShort (front.reverse ++ behind) more rest others.symm missing
      refine ⟨cause, stop, ?_⟩
      rw [whole, bind_apply_ok (head.takes behind more), failed]

theorem delimits_take {access : Access} {count : Nat} (long : bytes.length = count) :
    Delimits (take access count) bytes bytes where
  takes := takes_take_of_length long
  runsShort := by
    intro behind front back joined missing
    have short : ¬ count ≤ front.length := by
      have filled := List.length_pos_iff.2 missing
      rw [← long, ← joined, List.length_append]
      omega
    rw [take, pass_eq, if_neg short]
    exact ⟨_, _, rfl⟩

/-! ## Regular reads in a row -/

theorem regular_pure (value : α) : Regular (pure value) where
  gives := gives_pure (delimits_pure value)
  blames := by
    intro start stop fault failed
    simp at failed

theorem regular_throw {fault : Fault} (lies : fault.LiesInBytes) :
    Regular (throw fault : Reads α) where
  gives := gives_throw fault
  blames := by
    intro start stop other failed
    obtain ⟨rfl, -⟩ := EStateM.Result.error.inj failed
    exact lies

theorem Regular.bind (head : Regular read) (tail : ∀ item, Regular (next item)) :
    Regular (read >>= next) where
  gives := by
    refine head.gives.bind fun front item opened => ?_
    refine (tail item).gives.mono fun back value closed => ?_
    exact opened.bind closed
  blames := by
    intro start stop fault failed
    rcases bind_apply_eq_error.1 failed with first | ⟨item, _, -, second⟩
    · exact head.blames first
    · exact (tail item).blames second

/-- A read whose value is seen as another is regular if it was before. -/
theorem Regular.map (regular : Regular read) (view : α → β) :
    Regular (do let value ← read; pure (view value)) :=
  regular.bind fun value => regular_pure (view value)

theorem Regular.ite {condition : Prop} [Decidable condition] {other : Reads α}
    (held : Regular read) (failed : Regular other) :
    Regular (if condition then read else other) := by
  split
  case isTrue => exact held
  case isFalse => exact failed

theorem regular_ofExcept {result : Except Fault α} (blames : BlamesBytes result) :
    Regular (ofExcept result) := by
  cases result with
  | ok value => exact regular_pure value
  | error fault => exact regular_throw (blames rfl)

/-- What a regular read takes in every place, it does not take without the end. -/
theorem Regular.delimits (regular : Regular read) {value : α} (taken : Takes read bytes value) :
    Delimits read bytes value := by
  obtain ⟨found, ahead, -, delimits⟩ := regular.gives (taken [] [])
  rw [List.append_nil, List.append_nil] at ahead
  rwa [show bytes = found from ahead]

/-! ## Bytes and numbers -/

theorem regular_take (access : Access) (count : Nat) : Regular (take access count) where
  gives := by
    refine (gives_take access count).mono ?_
    rintro bytes value ⟨rfl, long⟩
    exact delimits_take long
  blames := by
    intro start stop fault failed
    rw [take] at failed
    split at failed
    case h_1 => simp at failed
    case h_2 =>
      obtain ⟨rfl, -⟩ := EStateM.Result.error.inj failed
      trivial

theorem regular_byte : Regular byte :=
  (regular_take .byte 1).map _

theorem regular_number (access : Access) (width : Nat) : Regular (number access width) :=
  (regular_take access width).map _

theorem regular_int16 : Regular int16 :=
  (regular_number .int16 2).map _

theorem regular_word16 : Regular word16 :=
  (regular_number .word16 2).map _

theorem regular_int32 : Regular int32 :=
  (regular_number .int32 4).map _

theorem regular_word32 : Regular word32 :=
  (regular_number .word32 4).map _

theorem regular_int64 : Regular int64 :=
  (regular_number .int64 8).map _

theorem regular_word64 : Regular word64 :=
  (regular_number .word64 8).map _

theorem regular_uuid : Regular uuid := by
  refine regular_word64.bind fun high => ?_
  exact regular_word64.map _

theorem regular_integer (width : Width) : Regular (integer width) := by
  cases width with
  | byte => exact regular_byte.map _
  | int16 => exact regular_int16.map _
  | word16 => exact regular_word16.map _
  | int32 => exact regular_int32.map _
  | word32 => exact regular_word32.map _
  | int64 => exact regular_int64.map _
  | word64 => exact regular_word64.map _

/-! ## Texts, byte strings and lists -/

theorem blamesBytes_textOf (place : TextPlace) (bytes : List UInt8) :
    BlamesBytes (textOf place bytes) := by
  rw [textOf]
  split
  case h_1 text _ => exact blamesBytes_ok text
  case h_2 => exact blamesBytes_error trivial

theorem regular_text : Regular text := by
  refine regular_int32.bind fun length => ?_
  apply Regular.ite
  · exact regular_pure ""
  · refine (regular_take .text _).bind fun bytes => ?_
    exact regular_ofExcept (blamesBytes_textOf .field bytes)

theorem regular_byteArray : Regular byteArray := by
  refine regular_int32.bind fun length => ?_
  apply Regular.ite
  · exact regular_pure none
  · exact (regular_take .bytes _).map some

theorem regular_element : Regular element := by
  refine regular_int32.bind fun length => ?_
  apply Regular.ite
  · exact regular_pure none
  · exact (regular_take .bytes _).map some

theorem regular_byteArrayOrEmpty : Regular byteArrayOrEmpty :=
  regular_byteArray.map _

theorem regular_count (width : Width) : Regular (count width) := by
  refine (regular_integer width).bind fun value => ?_
  split
  case h_1 => exact regular_pure _
  case h_2 => exact regular_throw trivial

theorem regular_numberedFrom {read : Nat → Reads α} (one : ∀ index, Regular (read index))
    (index count : Nat) (done : List α) : Regular (numberedFrom read index count done) := by
  induction count generalizing index done with
  | zero => exact regular_pure done.reverse
  | succ count ih =>
      rw [numberedFrom_succ]
      exact (one index).bind fun item => ih (index + 1) (item :: done)

theorem regular_array (width : Width) (one : Regular read) : Regular (array width read) := by
  refine (regular_count width).bind fun count => ?_
  exact regular_numberedFrom (fun _ => one) 0 count []

/-! ## Payloads as a whole -/

theorem whole_run_of_error {fault : Fault} {stop : Cursor}
    (failed : read (Cursor.ofBytes bytes) = .error fault stop) :
    (whole read).run bytes = .error fault := by
  rw [run, whole, bind_apply_error failed]

/-- What is read as a whole is read as nothing once it is cut. -/
theorem Regular.run_cut (regular : Regular read) {value : α}
    (done : (whole read).run (front ++ back) = .ok value) (missing : back ≠ []) :
    ∃ cause, (whole read).run front = .error (.framing cause) := by
  have delimits : Delimits read (front ++ back) value := regular.gives.of_run_whole done
  obtain ⟨cause, stop, failed⟩ := delimits.runsShort [] front back rfl missing
  exact ⟨cause, whole_run_of_error failed⟩

/-- What is read as a whole is read as nothing once something follows it. -/
theorem Regular.run_extended (regular : Regular read) {value : α} {more : List UInt8}
    (done : (whole read).run bytes = .ok value) (something : more ≠ []) :
    ∃ cause, (whole read).run (bytes ++ more) = .error (.framing cause) := by
  have delimits : Delimits read bytes value := regular.gives.of_run_whole done
  have opened := delimits.takes [] more
  have unfinished : finish ⟨bytes.reverse ++ [], more⟩ = .error
      (.framing (.trailing more.length bytes.length (bytes.length + more.length)))
      ⟨bytes.reverse ++ [], more⟩ := by
    rw [finish, Cursor.atEnd, if_neg (by simpa using something)]
    simp [Cursor.remaining, Cursor.position, Cursor.size]
  refine ⟨.trailing more.length bytes.length (bytes.length + more.length), ?_⟩
  rw [run, whole, Cursor.ofBytes, bind_apply_ok opened, bind_apply_error unfinished]

theorem Regular.blamesBytes_run (regular : Regular read) (bytes : List UInt8) :
    BlamesBytes ((whole read).run bytes) := by
  intro fault failed
  rw [run] at failed
  split at failed
  case h_1 => simp at failed
  case h_2 cause stop ran =>
    obtain rfl := Except.error.inj failed
    rcases bind_apply_eq_error.1 ran with first | ⟨value, middle, -, second⟩
    · exact regular.blames first
    · rcases bind_apply_eq_error.1 second with ended | ⟨_, last, -, never⟩
      · rw [finish] at ended
        split at ended
        case isTrue => simp at ended
        case isFalse =>
          obtain ⟨rfl, -⟩ := EStateM.Result.error.inj ended
          trivial
      · simp at never

end Reads

open Reads

/-! ## Listed records and flags -/

theorem NamedText.regular_read : Regular NamedText.read := by
  refine regular_text.bind fun name => ?_
  exact regular_text.map _

theorem Attribute.regular_read : Regular Attribute.read := by
  refine regular_word16.bind fun code => ?_
  exact regular_byteArray.map _

theorem Extension.regular_read : Regular Extension.read := by
  refine regular_text.bind fun name => ?_
  exact (regular_array .word16 NamedText.regular_read).map _

theorem FlagTable.regular_read {α : Type} (table : FlagTable α) (width : Width) :
    Regular (table.read width) :=
  (regular_integer width).map _

end SchemaWire
