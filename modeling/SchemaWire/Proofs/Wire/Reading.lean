import SchemaWire.Proofs.Text.Utf8
import SchemaWire.Proofs.Wire.Drafting
import SchemaWire.Wire.Reading

/-!
# Reading what was written

A read takes certain bytes off the front of a payload if it does so whatever stands before and
after them.  Reads that do can be put in a row; a read of all that is left can only come last.
-/

namespace SchemaWire
namespace Reads

open Fallible

variable {α β : Type}

/-- The bytes off the front, whatever follows them, are read as a value. -/
def Takes (read : Reads α) (bytes : List UInt8) (value : α) : Prop :=
  ∀ behind rest, read ⟨behind, bytes ++ rest⟩ = .ok value ⟨bytes.reverse ++ behind, rest⟩

/-- Bytes after which nothing follows are read as a value. -/
def TakesAll (read : Reads α) (bytes : List UInt8) (value : α) : Prop :=
  ∀ behind, read ⟨behind, bytes⟩ = .ok value ⟨bytes.reverse ++ behind, []⟩

/-! ## Reads in a row -/

theorem takes_pure (value : α) : Takes (pure value) [] value :=
  fun _ _ => rfl

theorem Takes.bind {read : Reads α} {next : α → Reads β} {first second : List UInt8} {item : α}
    {value : β} (head : Takes read first item) (tail : Takes (next item) second value) :
    Takes (read >>= next) (first ++ second) value := by
  intro behind rest
  calc
    (read >>= next) ⟨behind, first ++ second ++ rest⟩ =
        next item ⟨first.reverse ++ behind, second ++ rest⟩ := by
      rw [List.append_assoc, bind_apply_ok (head behind (second ++ rest))]
    _ = .ok value ⟨second.reverse ++ (first.reverse ++ behind), rest⟩ := tail _ rest
    _ = .ok value ⟨(first ++ second).reverse ++ behind, rest⟩ := by
      rw [List.reverse_append, List.append_assoc]

/-- A computation on what was read takes nothing more. -/
theorem Takes.then {read : Reads α} {next : α → Reads β} {bytes : List UInt8} {item : α} {value : β}
    (head : Takes read bytes item) (tail : Takes (next item) [] value) :
    Takes (read >>= next) bytes value := by
  simpa using head.bind tail

/-- What was read may be seen as another value. -/
theorem Takes.map {read : Reads α} {bytes : List UInt8} {item : α} (taken : Takes read bytes item)
    (view : α → β) : Takes (do let item ← read; pure (view item)) bytes (view item) :=
  taken.then (takes_pure (view item))

/-- What is taken off the front of bytes is determined by them. -/
theorem Takes.unique {read : Reads α} {first second front back : List UInt8} {item other : α}
    (taken : Takes read first item) (alike : Takes read second other)
    (joined : first ++ front = second ++ back) : item = other ∧ first = second ∧ front = back := by
  have same : (.ok item ⟨first.reverse ++ [], front⟩ : EStateM.Result Fault Cursor α) =
      .ok other ⟨second.reverse ++ [], back⟩ := by
    rw [← taken [] front, joined, alike [] back]
  obtain ⟨value, stop⟩ := EStateM.Result.ok.inj same
  obtain ⟨behind, ahead⟩ := Cursor.mk.inj stop
  rw [List.append_nil, List.append_nil, List.reverse_inj] at behind
  exact ⟨value, behind, ahead⟩

theorem Takes.takesAll {read : Reads α} {bytes : List UInt8} {value : α}
    (taken : Takes read bytes value) : TakesAll read bytes value := by
  intro behind
  simpa using taken behind []

theorem Takes.bindAll {read : Reads α} {next : α → Reads β} {first second : List UInt8} {item : α}
    {value : β} (head : Takes read first item) (tail : TakesAll (next item) second value) :
    TakesAll (read >>= next) (first ++ second) value := by
  intro behind
  calc
    (read >>= next) ⟨behind, first ++ second⟩ = next item ⟨first.reverse ++ behind, second⟩ := by
      rw [bind_apply_ok (head behind second)]
    _ = .ok value ⟨second.reverse ++ (first.reverse ++ behind), []⟩ := tail _
    _ = .ok value ⟨(first ++ second).reverse ++ behind, []⟩ := by
      rw [List.reverse_append, List.append_assoc]

theorem TakesAll.then {read : Reads α} {next : α → Reads β} {bytes : List UInt8} {item : α}
    {value : β} (head : TakesAll read bytes item) (tail : Takes (next item) [] value) :
    TakesAll (read >>= next) bytes value := by
  intro behind
  rw [bind_apply_ok (head behind)]
  exact tail _ []

theorem takes_ofExcept {result : Except Fault α} {value : α} (done : result = .ok value) :
    Takes (ofExcept result) [] value := by
  subst done
  exact takes_pure value

/-- A payload of which all is taken is read as a whole. -/
theorem TakesAll.run_whole {read : Reads α} {bytes : List UInt8} {value : α}
    (taken : TakesAll read bytes value) : (whole read).run bytes = .ok value := by
  have ended : whole read (Cursor.ofBytes bytes) = .ok value ⟨bytes.reverse ++ [], []⟩ := by
    rw [whole, Cursor.ofBytes, bind_apply_ok (taken [])]
    rfl
  rw [run, ended]

/-! ## Bytes and numbers -/

theorem takes_take (access : Access) (bytes : List UInt8) :
    Takes (take access bytes.length) bytes bytes := by
  intro behind rest
  rw [take, pass_eq, if_pos (by simp)]
  simp

theorem takes_take_of_length {access : Access} {count : Nat} {bytes : List UInt8}
    (long : bytes.length = count) : Takes (take access count) bytes bytes := by
  subst long
  exact takes_take access bytes

theorem takes_skip {count : Nat} {bytes : List UInt8} (long : bytes.length = count) :
    Takes (skip count) bytes () := by
  apply (takes_take_of_length long).then
  exact takes_pure ()

theorem takesAll_rest (bytes : List UInt8) : TakesAll rest bytes bytes := by
  intro behind
  simp [rest, List.reverseAux_eq]

theorem takes_number (access : Access) (width : Nat) {value : Nat}
    (short : value < Nat.pow 256 width) :
    Takes (number access width) (BigEndian.ofNat width value) value := by
  refine (takes_take_of_length (BigEndian.length_ofNat width value)).then ?_
  rw [BigEndian.toNat_ofNat, Nat.mod_eq_of_lt short]
  exact takes_pure value

theorem takes_byte (value : UInt8) : Takes byte [value] value := by
  have spelled : UInt8.ofNat (BigEndian.toNat [value]) = value := by simp [BigEndian.toNat]
  have taken := (takes_take .byte [value]).map fun bytes => UInt8.ofNat (BigEndian.toNat bytes)
  rwa [spelled] at taken

theorem takes_bool (value : Bool) : Takes bool [if value then 1 else 0] value := by
  have taken := (takes_byte (if value then 1 else 0)).map fun byte => decide (byte ≠ 0)
  cases value <;> exact taken

theorem takes_word16 (value : UInt16) : Takes word16 (BigEndian.ofNat 2 value.toNat) value := by
  have taken := (takes_number .word16 2 value.toNat_lt).map UInt16.ofNat
  rwa [UInt16.ofNat_toNat] at taken

theorem takes_int16 (value : Int16) :
    Takes int16 (BigEndian.ofNat 2 value.toUInt16.toNat) value := by
  have taken := (takes_number .int16 2 value.toUInt16.toNat_lt).map fun number =>
    (UInt16.ofNat number).toInt16
  rwa [UInt16.ofNat_toNat, Int16.toInt16_toUInt16] at taken

theorem takes_word32 (value : UInt32) : Takes word32 (BigEndian.ofNat 4 value.toNat) value := by
  have taken := (takes_number .word32 4 value.toNat_lt).map UInt32.ofNat
  rwa [UInt32.ofNat_toNat] at taken

theorem takes_int32 (value : Int32) :
    Takes int32 (BigEndian.ofNat 4 value.toUInt32.toNat) value := by
  have taken := (takes_number .int32 4 value.toUInt32.toNat_lt).map fun number =>
    (UInt32.ofNat number).toInt32
  rwa [UInt32.ofNat_toNat, Int32.toInt32_toUInt32] at taken

theorem takes_word64 (value : UInt64) : Takes word64 (BigEndian.ofNat 8 value.toNat) value := by
  have taken := (takes_number .word64 8 value.toNat_lt).map UInt64.ofNat
  rwa [UInt64.ofNat_toNat] at taken

theorem takes_int64 (value : Int64) :
    Takes int64 (BigEndian.ofNat 8 value.toUInt64.toNat) value := by
  have taken := (takes_number .int64 8 value.toUInt64.toNat_lt).map fun number =>
    (UInt64.ofNat number).toInt64
  rwa [UInt64.ofNat_toNat, Int64.toInt64_toUInt64] at taken

theorem takes_float32 (bits : UInt32) : Takes float32 (BigEndian.ofNat 4 bits.toNat) bits := by
  have taken := (takes_number .float32 4 bits.toNat_lt).map UInt32.ofNat
  rwa [UInt32.ofNat_toNat] at taken

theorem takes_float64 (bits : UInt64) : Takes float64 (BigEndian.ofNat 8 bits.toNat) bits := by
  have taken := (takes_number .float64 8 bits.toNat_lt).map UInt64.ofNat
  rwa [UInt64.ofNat_toNat] at taken

theorem takes_uuid (id : Uuid) : Takes uuid id.bytes id := by
  apply (takes_word64 id.high).bind
  apply (takes_word64 id.low).then
  exact takes_pure id

theorem textOf_encode (place : TextPlace) (text : String) :
    textOf place (Utf8.encode text) = .ok text := by
  rw [textOf, Utf8.decode_encode]

theorem encode_of_textOf {place : TextPlace} {bytes : List UInt8} {text : String}
    (held : textOf place bytes = .ok text) : Utf8.encode text = bytes := by
  rw [textOf] at held
  split at held
  case h_2 => simp at held
  case h_1 decoded =>
    obtain rfl := Except.ok.inj held
    exact (Utf8.eq_encode_of_decode decoded).symm

/-! ## Elements and lists of them -/

/-- A length is read back as a number with sign. -/
theorem takes_length {length : Nat} (fits : length ≤ Misfit.lengthMax) :
    ∃ word : Int32, word.toInt = length ∧ Takes int32 (BigEndian.ofNat 4 length) word := by
  have below : length < 2147483648 := Nat.lt_of_le_of_lt fits (by decide)
  refine ⟨(UInt32.ofNat length).toInt32, ?_, ?_⟩
  · rw [BigEndian.toInt_toInt32_ofNat length (by omega), if_pos below]
  · have taken := takes_int32 (UInt32.ofNat length).toInt32
    rw [UInt32.toUInt32_toInt32, Writes.toNat_lengthWord fits] at taken
    exact taken

theorem takes_length_of_filled {bytes : List UInt8} (filled : bytes ≠ [])
    (fits : bytes.length ≤ Misfit.lengthMax) :
    ∃ word : Int32, ¬ word ≤ 0 ∧ word.toInt = bytes.length ∧
      Takes int32 (BigEndian.ofNat 4 bytes.length) word := by
  obtain ⟨word, counted, taken⟩ := takes_length fits
  refine ⟨word, ?_, counted, taken⟩
  have some := List.length_pos_iff.2 filled
  rw [Int32.le_iff_toInt_le, counted, Int32.toInt_zero]
  omega

theorem takes_length_of_empty :
    ∃ word : Int32, word ≤ 0 ∧ Takes int32 (boxed []) word := by
  obtain ⟨word, counted, taken⟩ := takes_length (Nat.zero_le Misfit.lengthMax)
  refine ⟨word, ?_, taken⟩
  rw [Int32.le_iff_toInt_le, counted]
  simp

theorem takes_element {bytes : List UInt8} (fits : bytes.length ≤ Misfit.lengthMax) :
    Takes element (boxed bytes) (some bytes) := by
  obtain ⟨word, counted, taken⟩ := takes_length fits
  have natural : ¬ word < 0 := by
    rw [Int32.lt_iff_toInt_lt, counted]
    simp
  refine taken.bind ?_
  rw [if_neg natural, counted]
  exact (takes_take .bytes bytes).map some

/-- A byte string that is not empty is read back; an empty one would be taken for none. -/
theorem takes_byteArray {bytes : List UInt8} (filled : bytes ≠ [])
    (fits : bytes.length ≤ Misfit.lengthMax) : Takes byteArray (boxed bytes) (some bytes) := by
  obtain ⟨word, positive, counted, taken⟩ := takes_length_of_filled filled fits
  refine taken.bind ?_
  rw [if_neg positive, counted]
  exact (takes_take .bytes bytes).map some

theorem takes_byteArrayOrEmpty {bytes : List UInt8} (filled : bytes ≠ [])
    (fits : bytes.length ≤ Misfit.lengthMax) : Takes byteArrayOrEmpty (boxed bytes) bytes := by
  apply (takes_byteArray filled fits).then
  exact takes_pure bytes

theorem takes_element_absent :
    Takes element (BigEndian.ofNat 4 (-1 : Int32).toUInt32.toNat) none := by
  apply (takes_int32 (-1)).then
  exact takes_pure none

theorem takes_numberedFrom {read : Nat → Reads α} {chunks : List (List UInt8)} {items : List α}
    (each : List.Forall₂ (fun chunk item => ∀ index, Takes (read index) chunk item) chunks items)
    (index : Nat) (done : List α) :
    Takes (numberedFrom read index items.length done) chunks.flatten (done.reverse ++ items) := by
  induction each generalizing index done with
  | nil =>
      intro behind rest
      simp [numberedFrom]
  | @cons chunk item chunks items head tail ih =>
      intro behind rest
      simp only [List.length_cons, numberedFrom, List.flatten_cons, List.append_assoc,
        head index behind (chunks.flatten ++ rest)]
      simpa using ih (index + 1) (item :: done) (chunk.reverse ++ behind) rest

theorem takes_numbered {read : Nat → Reads α} {chunks : List (List UInt8)} {items : List α}
    (each : List.Forall₂ (fun chunk item => ∀ index, Takes (read index) chunk item) chunks items) :
    Takes (numbered read items.length) chunks.flatten items :=
  takes_numberedFrom each 0 []

end Reads
end SchemaWire
