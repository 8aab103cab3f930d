import SchemaWire.Descriptor
import SchemaWire.Proofs.Wire.Delimiting
import SchemaWire.Proofs.Wire.Shape

/-!
# Streams of descriptors

A descriptor tells by itself where it ends.  So a stream is the descriptors that its bytes spell one
after the other: streams can be put in a row, and a stream can be cut between two of its descriptors
and nowhere else.
-/

namespace SchemaWire

open Fallible Reads

/-! ## The wire form of a descriptor -/

namespace ShapeElement

/-- The bytes of an element of a shape. -/
def bytes (element : ShapeElement) : List UInt8 :=
  BigEndian.ofNat 4 element.flags.toNat ++ ([element.cardinality.byte] ++
    (boxed (Utf8.encode element.name) ++ BigEndian.ofNat 2 element.type.toNat))

/-- The length of the name of an element can be written. -/
def Fits (element : ShapeElement) : Prop :=
  (Utf8.encode element.name).length ≤ Misfit.lengthMax

theorem takes_read {element : ShapeElement} (fits : element.Fits) :
    Takes read element.bytes element := by
  refine (takes_word32 _).bind ?_
  refine (takes_byte _).bind ?_
  refine (takes_ofExcept (Cardinality.ofByte_byte _)).bind ?_
  refine (takes_text fits).bind ?_
  exact (takes_word16 _).then (takes_pure element)

theorem regular_read : Regular read := by
  refine regular_word32.bind fun flags => ?_
  refine regular_byte.bind fun byte => ?_
  refine (regular_ofExcept (Cardinality.blamesBytes_ofByte byte)).bind fun cardinality => ?_
  refine regular_text.bind fun name => ?_
  exact regular_word16.map _

end ShapeElement

namespace Descriptor

variable {descriptor : Descriptor} {descriptors others : List Descriptor}
  {stream front back : List UInt8}

/-- The byte that tells the kind of a descriptor. -/
def tag : Descriptor → UInt8
  | .set _ _ => 0
  | .objectShape _ _ => 1
  | .baseScalar _ => 2
  | .scalar _ _ => 3
  | .tuple _ _ => 4
  | .namedTuple _ _ => 5
  | .array _ _ _ => 6
  | .enumeration _ _ => 7
  | .inputShape _ _ => 8
  | .range _ _ => 9
  | .remark tag _ _ => tag

/-- The bytes of the position of a type. -/
def positionBytes (position : UInt16) : List UInt8 :=
  BigEndian.ofNat 2 position.toNat

/-- The bytes of an element of a named tuple. -/
def namedBytes (element : String × UInt16) : List UInt8 :=
  boxed (Utf8.encode element.1) ++ positionBytes element.2

/-- The bytes of a dimension: its length, or minus one if it is unbounded. -/
def dimensionBytes : Option UInt32 → List UInt8
  | none => BigEndian.ofNat 4 (-1 : Int32).toUInt32.toNat
  | some length => BigEndian.ofNat 4 length.toNat

/-- The bytes after the tag and the identifier. -/
def body : Descriptor → List UInt8
  | .set _ position | .scalar _ position | .range _ position => positionBytes position
  | .baseScalar _ => []
  | .objectShape _ elements | .inputShape _ elements => listed ShapeElement.bytes elements
  | .tuple _ elements => listed positionBytes elements
  | .namedTuple _ elements => listed namedBytes elements
  | .array _ element dimensions => positionBytes element ++ listed dimensionBytes dimensions
  | .enumeration _ members => listed (fun member => boxed (Utf8.encode member)) members
  | .remark _ _ text => boxed (Utf8.encode text)

/-- The wire form of a descriptor. -/
def bytes (descriptor : Descriptor) : List UInt8 :=
  [descriptor.tag] ++ (descriptor.id.bytes ++ descriptor.body)

/-- The lengths and the numbers of listed items in a descriptor can be written, and the tag of a
remark is one of remarks. -/
def Fits : Descriptor → Prop
  | .set _ _ | .scalar _ _ | .range _ _ | .baseScalar _ => True
  | .objectShape _ elements | .inputShape _ elements =>
      elements.length ≤ 65535 ∧ ∀ element ∈ elements, element.Fits
  | .tuple _ elements => elements.length ≤ 65535
  | .namedTuple _ elements =>
      elements.length ≤ 65535 ∧
        ∀ element ∈ elements, (Utf8.encode element.1).length ≤ Misfit.lengthMax
  | .array _ _ dimensions =>
      dimensions.length ≤ 65535 ∧ ∀ length, some length ∈ dimensions →
        length.toNat ≤ Misfit.lengthMax
  | .enumeration _ members =>
      members.length ≤ 65535 ∧ ∀ member ∈ members, (Utf8.encode member).length ≤ Misfit.lengthMax
  | .remark tag _ text => remarkTag ≤ tag ∧ (Utf8.encode text).length ≤ Misfit.lengthMax

/-! ## Descriptors are read back -/

theorem takes_readNamed {element : String × UInt16}
    (fits : (Utf8.encode element.1).length ≤ Misfit.lengthMax) :
    Takes readNamed (namedBytes element) element := by
  refine (takes_text fits).bind ?_
  exact (takes_word16 _).then (takes_pure element)

theorem takes_readDimension {dimension : Option UInt32}
    (fits : ∀ length, dimension = some length → length.toNat ≤ Misfit.lengthMax) :
    Takes readDimension (dimensionBytes dimension) dimension := by
  cases dimension with
  | none => exact (takes_int32 (-1)).then (takes_pure none)
  | some length =>
      have below : length.toNat < 2147483648 := Nat.lt_of_le_of_lt (fits length rfl) (by decide)
      have natural : ¬ length.toInt32 < 0 := by
        have value := BigEndian.toInt_toInt32_ofNat length.toNat length.toNat_lt
        rw [UInt32.ofNat_toNat, if_pos below] at value
        rw [Int32.lt_iff_toInt_lt, value, Int32.toInt_zero]
        omega
      have taken := (takes_int32 length.toInt32).map fun word =>
        if word < 0 then none else some word.toUInt32
      rwa [if_neg natural, UInt32.toUInt32_toInt32] at taken

theorem ne_of_remark {tag other : UInt8} (remark : remarkTag ≤ tag) (small : other < remarkTag) :
    tag ≠ other := by
  rintro rfl
  exact absurd small (UInt8.not_lt.2 remark)

theorem readBody_of_remark {tag : UInt8} (remark : remarkTag ≤ tag) (id : Uuid) :
    readBody tag id = (do let text ← Reads.text; pure (.remark tag id text)) := by
  rw [readBody]
  iterate 10 rw [if_neg (ne_of_remark remark (by decide))]
  rw [if_pos remark]

theorem takes_readBody (fits : descriptor.Fits) :
    Takes (readBody descriptor.tag descriptor.id) descriptor.body descriptor := by
  cases descriptor with
  | set id element => exact (takes_word16 element).map (set id)
  | objectShape id elements =>
      have listed := takes_array16_self fits.1 fun element member =>
        ShapeElement.takes_read (fits.2 element member)
      exact listed.map (objectShape id)
  | baseScalar id => exact takes_pure (baseScalar id)
  | scalar id base => exact (takes_word16 base).map (scalar id)
  | tuple id elements =>
      exact (takes_array16_self fits fun element _ => takes_word16 element).map (tuple id)
  | namedTuple id elements =>
      have listed := takes_array16_self fits.1 fun element member =>
        takes_readNamed (fits.2 element member)
      exact listed.map (namedTuple id)
  | array id element dimensions =>
      have listed := takes_array16_self fits.1 fun dimension member =>
        takes_readDimension fun length known => fits.2 length (known ▸ member)
      exact (takes_word16 element).bind (listed.map (array id element))
  | enumeration id members =>
      have listed := takes_array16_self fits.1 fun member listed =>
        takes_text (fits.2 member listed)
      exact listed.map (enumeration id)
  | inputShape id elements =>
      have listed := takes_array16_self fits.1 fun element member =>
        ShapeElement.takes_read (fits.2 element member)
      exact listed.map (inputShape id)
  | range id element => exact (takes_word16 element).map (range id)
  | remark tag id text =>
      rw [show (remark tag id text).tag = tag from rfl, readBody_of_remark fits.1]
      exact (takes_text fits.2).map (remark tag id)

theorem takes_read (fits : descriptor.Fits) : Takes read descriptor.bytes descriptor := by
  refine (takes_byte _).bind ?_
  refine (takes_uuid _).bind ?_
  exact takes_readBody fits

theorem regular_readNamed : Regular readNamed := by
  refine regular_text.bind fun name => ?_
  exact regular_word16.map _

theorem regular_readDimension : Regular readDimension :=
  regular_int32.map _

theorem regular_readBody (tag : UInt8) (id : Uuid) : Regular (readBody tag id) := by
  have elements := regular_array .word16 ShapeElement.regular_read
  have array : Regular (do
      let element ← word16
      Descriptor.array id element <$> Reads.array .word16 readDimension) := by
    refine regular_word16.bind fun element => ?_
    exact (regular_array .word16 regular_readDimension).map _
  apply Regular.ite (regular_word16.map (set id))
  apply Regular.ite (elements.map (objectShape id))
  apply Regular.ite (regular_pure (baseScalar id))
  apply Regular.ite (regular_word16.map (scalar id))
  apply Regular.ite ((regular_array .word16 regular_word16).map (tuple id))
  apply Regular.ite ((regular_array .word16 regular_readNamed).map (namedTuple id))
  apply Regular.ite array
  apply Regular.ite ((regular_array .word16 regular_text).map (enumeration id))
  apply Regular.ite (elements.map (inputShape id))
  apply Regular.ite (regular_word16.map (range id))
  apply Regular.ite (regular_text.map (remark tag id))
  exact regular_throw trivial

theorem regular_read : Regular read := by
  refine regular_byte.bind fun tag => ?_
  refine regular_uuid.bind fun id => ?_
  exact regular_readBody tag id

theorem delimits_read (fits : descriptor.Fits) : Delimits read descriptor.bytes descriptor :=
  regular_read.delimits (takes_read fits)

/-! ## Streams -/

theorem ne_nil_of_delimits {bytes : List UInt8} (delimits : Delimits read bytes descriptor) :
    bytes ≠ [] := by
  rintro rfl
  have taken := delimits.takes [] []
  have failed : read ⟨[], []⟩ = .error (.framing (.short .byte 1 0 0)) ⟨[], []⟩ := rfl
  simp [failed] at taken

/-- A stream spells descriptors: it is cut into bytes each of which are read as one of them. -/
inductive Spells : List UInt8 → List Descriptor → Prop where
  /-- No bytes spell no descriptors. -/
  | nil : Spells [] []
  /-- The bytes of a descriptor stand before a stream. -/
  | cons {bytes rest : List UInt8} {descriptor : Descriptor} {descriptors : List Descriptor}
      (head : Delimits read bytes descriptor) (tail : Spells rest descriptors) :
      Spells (bytes ++ rest) (descriptor :: descriptors)

theorem spells_of_fits (fits : ∀ descriptor ∈ descriptors, descriptor.Fits) :
    Spells (descriptors.flatMap bytes) descriptors := by
  induction descriptors with
  | nil => exact .nil
  | cons descriptor descriptors ih =>
      rw [List.forall_mem_cons] at fits
      exact .cons (delimits_read fits.1) (ih fits.2)

theorem spells_iff_chunks :
    Spells stream descriptors ↔
      ∃ chunks, stream = chunks.flatten ∧ List.Forall₂ (Delimits read) chunks descriptors := by
  constructor
  · intro spelled
    induction spelled with
    | nil => exact ⟨[], rfl, .nil⟩
    | @cons bytes _ _ _ head _ ih =>
        obtain ⟨chunks, rfl, each⟩ := ih
        exact ⟨bytes :: chunks, rfl, .cons head each⟩
  · rintro ⟨chunks, rfl, each⟩
    induction each with
    | nil => exact .nil
    | cons head _ ih => exact .cons head ih

theorem Spells.append (first : Spells front descriptors) (second : Spells back others) :
    Spells (front ++ back) (descriptors ++ others) := by
  induction first with
  | nil => exact second
  | cons head _ ih =>
      rw [List.append_assoc]
      exact .cons head ih

/-- The descriptors of a stream that goes on are those of its beginning, and those of the rest. -/
theorem Spells.split (first : Spells front descriptors) (whole : Spells (front ++ back) others) :
    ∃ more, Spells back more ∧ others = descriptors ++ more := by
  induction first generalizing others with
  | nil => exact ⟨others, whole, rfl⟩
  | @cons bytes rest descriptor descriptors head _ ih =>
      rw [List.append_assoc] at whole
      generalize joined : bytes ++ (rest ++ back) = stream at whole
      cases whole with
      | nil => exact absurd (List.append_eq_nil_iff.1 joined).1 (ne_nil_of_delimits head)
      | cons other tail =>
          obtain ⟨rfl, rfl, rfl⟩ := head.takes.unique other.takes joined
          obtain ⟨more, spelled, rfl⟩ := ih tail
          exact ⟨more, spelled, rfl⟩

/-! ## Reading a stream -/

theorem readUpTo_of_nil (count : Nat) (done : List Descriptor) (behind : List UInt8) :
    readUpTo count done ⟨behind, []⟩ = .ok done.reverse ⟨behind, []⟩ := by
  cases count <;> rfl

theorem readUpTo_succ {cursor : Cursor} (more : cursor.ahead ≠ []) (count : Nat)
    (done : List Descriptor) :
    readUpTo (count + 1) done cursor =
      (do let descriptor ← read; readUpTo count (descriptor :: done) : Reads _) cursor := by
  obtain ⟨behind, ahead⟩ := cursor
  cases ahead with
  | nil => exact absurd rfl more
  | cons byte ahead => rfl

/-- The bytes of a descriptor are read off a stream, and fewer are left than may still be read. -/
theorem readUpTo_of_delimits {bytes rest : List UInt8} {count : Nat}
    (head : Delimits read bytes descriptor) (enough : (bytes ++ rest).length ≤ count) :
    ∃ less, rest.length ≤ less ∧ ∀ done behind, readUpTo count done ⟨behind, bytes ++ rest⟩ =
      readUpTo less (descriptor :: done) ⟨bytes.reverse ++ behind, rest⟩ := by
  have filled := ne_nil_of_delimits head
  have long := List.length_pos_iff.2 filled
  rw [List.length_append] at enough
  obtain ⟨less, rfl⟩ : ∃ less, count = less + 1 := ⟨count - 1, by omega⟩
  refine ⟨less, by omega, ?_⟩
  intro done behind
  rw [readUpTo_succ (by simp [filled]), bind_apply_ok (head.takes behind rest)]

theorem Spells.takesAll (spelled : Spells stream descriptors) {count : Nat}
    (enough : stream.length ≤ count) (done : List Descriptor) :
    TakesAll (readUpTo count done) stream (done.reverse ++ descriptors) := by
  induction spelled generalizing count done with
  | nil =>
      intro behind
      rw [readUpTo_of_nil, List.append_nil]
      rfl
  | @cons _ _ descriptor _ head _ ih =>
      intro behind
      obtain ⟨less, fewer, same⟩ := readUpTo_of_delimits head enough
      rw [same, ih fewer (descriptor :: done)]
      simp

theorem spells_of_readUpTo {count : Nat} {done result : List Descriptor} {start stop : Cursor}
    (ran : readUpTo count done start = .ok result stop) (enough : start.ahead.length ≤ count) :
    ∃ descriptors, Spells start.ahead descriptors ∧ result = done.reverse ++ descriptors := by
  induction count generalizing done start with
  | zero =>
      have nothing := List.eq_nil_of_length_eq_zero (Nat.le_zero.1 enough)
      obtain ⟨rfl, -⟩ := EStateM.Result.ok.inj ran
      rw [nothing]
      exact ⟨[], .nil, (List.append_nil _).symm⟩
  | succ count ih =>
      by_cases ended : start.ahead = []
      · obtain ⟨behind, ahead⟩ := start
        obtain rfl : ahead = [] := ended
        rw [readUpTo_of_nil] at ran
        obtain ⟨rfl, -⟩ := EStateM.Result.ok.inj ran
        exact ⟨[], .nil, (List.append_nil _).symm⟩
      · rw [readUpTo_succ ended] at ran
        obtain ⟨descriptor, middle, opened, closed⟩ := bind_apply_eq_ok.1 ran
        obtain ⟨bytes, ahead, -, delimits⟩ := regular_read.gives opened
        have long := List.length_pos_iff.2 (ne_nil_of_delimits delimits)
        rw [ahead, List.length_append] at enough
        obtain ⟨descriptors, spelled, rfl⟩ := ih closed (by omega)
        rw [ahead]
        exact ⟨descriptor :: descriptors, .cons delimits spelled, by simp⟩

/-- A stream is read as descriptors if and only if it spells them. -/
theorem ofStream_eq_ok : ofStream stream = .ok descriptors ↔ Spells stream descriptors := by
  constructor
  · intro done
    rw [ofStream, run] at done
    split at done
    case h_2 => simp at done
    case h_1 result stop ran =>
      obtain rfl := Except.ok.inj done
      obtain ⟨found, spelled, rfl⟩ := spells_of_readUpTo ran (Nat.le_refl _)
      exact spelled
  · intro spelled
    rw [ofStream, run, Cursor.ofBytes, spelled.takesAll (Nat.le_refl _) [] []]
    rfl

theorem liesInBytes_of_readUpTo {count : Nat} {done : List Descriptor} {start stop : Cursor}
    {fault : Fault} (failed : readUpTo count done start = .error fault stop) :
    fault.LiesInBytes := by
  induction count generalizing done start with
  | zero => simp [readUpTo] at failed
  | succ count ih =>
      by_cases ended : start.ahead = []
      · obtain ⟨behind, ahead⟩ := start
        obtain rfl : ahead = [] := ended
        simp [readUpTo_of_nil] at failed
      · rw [readUpTo_succ ended] at failed
        rcases bind_apply_eq_error.1 failed with first | ⟨descriptor, middle, -, others⟩
        · exact regular_read.blames first
        · exact ih others

theorem blamesBytes_ofStream (stream : List UInt8) : BlamesBytes (ofStream stream) := by
  intro fault failed
  rw [ofStream, run] at failed
  split at failed
  case h_1 => simp at failed
  case h_2 cause stop ran =>
    obtain rfl := Except.error.inj failed
    exact liesInBytes_of_readUpTo ran

/-! ## Cuts of a stream -/

/-- Who reads a number of descriptors off a stream stands between its two parts. -/
def Parts (front back : List UInt8) (count : Nat) : Prop :=
  ∃ items, repeated read count (Cursor.ofBytes (front ++ back)) = .ok items ⟨front.reverse, back⟩

theorem Spells.parts (spelled : Spells front descriptors) (back : List UInt8) :
    Parts front back descriptors.length := by
  obtain ⟨chunks, rfl, each⟩ := spells_iff_chunks.1 spelled
  have taken := takes_numbered (each.imp fun _ _ delimits (_ : Nat) => delimits.takes)
  have ran := taken [] back
  rw [List.append_nil] at ran
  exact ⟨descriptors, ran⟩

theorem spells_of_parts {count : Nat} (parts : Parts front back count) :
    ∃ items, items.length = count ∧ Spells front items := by
  obtain ⟨items, ran⟩ := parts
  obtain ⟨bytes, ahead, -, chunks, rfl, counted, each⟩ :=
    gives_numbered (fun _ => regular_read.gives) count ran
  obtain rfl : front = chunks.flatten := List.append_cancel_right ahead
  exact ⟨items, counted, spells_iff_chunks.2 ⟨chunks, rfl, each⟩⟩

/-- A part of a stream from which the end is missing is a stream, or it breaks off within a
descriptor and runs short there. -/
theorem Spells.cut (whole : Spells (front ++ back) descriptors) :
    (∃ items, Spells front items) ∨
      ∀ count done behind, front.length ≤ count →
        ∃ cause stop, readUpTo count done ⟨behind, front⟩ = .error (.framing cause) stop := by
  generalize joined : front ++ back = stream at whole
  induction whole generalizing front with
  | nil =>
      obtain ⟨rfl, -⟩ := List.append_eq_nil_iff.1 joined
      exact .inl ⟨[], .nil⟩
  | @cons bytes rest descriptor descriptors head _ ih =>
      rcases List.append_eq_append_iff.1 joined with ⟨lost, within, -⟩ | ⟨more, rfl, others⟩
      · by_cases nothing : front = []
        · rw [nothing]
          exact .inl ⟨[], .nil⟩
        by_cases ended : lost = []
        · subst ended
          rw [List.append_nil] at within
          have single := Spells.cons head .nil
          rw [List.append_nil, within] at single
          exact .inl ⟨_, single⟩
        · right
          intro count done behind enough
          have long := List.length_pos_iff.2 nothing
          obtain ⟨less, rfl⟩ : ∃ less, count = less + 1 := ⟨count - 1, by omega⟩
          obtain ⟨cause, stop, failed⟩ := head.runsShort behind front lost within.symm ended
          refine ⟨cause, stop, ?_⟩
          rw [readUpTo_succ nothing]
          exact bind_apply_error failed
      · rcases ih others.symm with ⟨items, spelled⟩ | fails
        · exact .inl ⟨descriptor :: items, .cons head spelled⟩
        · right
          intro count done behind enough
          obtain ⟨less, fewer, same⟩ := readUpTo_of_delimits head enough
          rw [same]
          exact fails less (descriptor :: done) _ fewer

theorem ofStream_of_readUpTo {fault : Fault} {stop : Cursor}
    (failed : readUpTo stream.length [] ⟨[], stream⟩ = .error fault stop) :
    ofStream stream = .error fault := by
  rw [ofStream, run, Cursor.ofBytes, failed]

/-- The wire forms of descriptors are read as the descriptors.  A stream before others is read as
its own descriptors and then theirs, if they are read at all.  A stream cut after some of its
descriptors is read as these, and one that is cut within a descriptor runs short. -/
theorem stream_exact :
    (∀ descriptors, (∀ descriptor ∈ descriptors, descriptor.Fits) →
      ofStream (descriptors.flatMap bytes) = .ok descriptors) ∧
    (∀ front back descriptors, ofStream front = .ok descriptors →
      ∀ all, ofStream (front ++ back) = .ok all ↔
        ∃ others, ofStream back = .ok others ∧ all = descriptors ++ others) ∧
    ∀ front back descriptors, ofStream (front ++ back) = .ok descriptors →
      (∀ count, Parts front back count →
        count ≤ descriptors.length ∧ ofStream front = .ok (descriptors.take count)) ∧
      ((∀ count, ¬ Parts front back count) →
        ∃ cause, ofStream front = .error (.framing cause)) := by
  refine ⟨?_, ?_, ?_⟩
  · intro descriptors fits
    exact ofStream_eq_ok.2 (spells_of_fits fits)
  · intro front back descriptors first all
    simp only [ofStream_eq_ok] at first ⊢
    constructor
    · exact first.split
    · rintro ⟨others, second, rfl⟩
      exact first.append second
  · intro front back descriptors done
    simp only [ofStream_eq_ok] at done ⊢
    constructor
    · intro count parts
      obtain ⟨items, rfl, spelled⟩ := spells_of_parts parts
      obtain ⟨more, -, rfl⟩ := spelled.split done
      rw [List.take_left, List.length_append]
      exact ⟨Nat.le_add_right _ _, spelled⟩
    · intro whole
      rcases done.cut with ⟨items, spelled⟩ | fails
      · exact absurd (spelled.parts back) (whole _)
      · obtain ⟨cause, stop, failed⟩ := fails front.length [] [] (Nat.le_refl _)
        exact ⟨cause, ofStream_of_readUpTo failed⟩

/-- A scalar, an array with an unbounded dimension, and a remark. -/
def mixedSample : List Descriptor :=
  [.baseScalar ⟨0, 1⟩, .array ⟨0, 2⟩ 0 [none, some 3], .remark 0xFF ⟨0, 1⟩ "n"]

theorem stream_exact_mixedSample :
    ofStream (mixedSample.flatMap bytes) = .ok mixedSample ∧
    (∃ others, ofStream ((mixedSample.drop 1).flatMap bytes) = .ok others ∧
      mixedSample = [.baseScalar ⟨0, 1⟩] ++ others) ∧
    ofStream ((mixedSample.take 1).flatMap bytes) = .ok [.baseScalar ⟨0, 1⟩] ∧
    ∃ cause, ofStream ((mixedSample.flatMap bytes).take 2) = .error (.framing cause) := by
  have fits : ∀ descriptor ∈ mixedSample, descriptor.Fits := by
    rintro _ (_ | ⟨_, _ | ⟨_, _ | ⟨_, ⟨⟩⟩⟩⟩)
    · trivial
    · refine ⟨by decide, ?_⟩
      intro length member
      obtain rfl : length = 3 := by simpa using member
      decide
    · exact ⟨by decide, by decide⟩
  have whole := stream_exact.1 mixedSample fits
  have parts : Parts ((mixedSample.take 1).flatMap bytes) ((mixedSample.drop 1).flatMap bytes) 1 :=
    ⟨[.baseScalar ⟨0, 1⟩], rfl⟩
  have first := ((stream_exact.2.2 _ _ _ whole).1 1 parts).2
  have within (count : Nat) :
      ¬ Parts ((mixedSample.flatMap bytes).take 2) ((mixedSample.flatMap bytes).drop 2) count := by
    intro parts
    obtain ⟨items, -, spelled⟩ := spells_of_parts parts
    have failed : ofStream ((mixedSample.flatMap bytes).take 2) =
        .error (.framing (.short .word64 8 1 1)) := rfl
    simp [failed, ← ofStream_eq_ok] at spelled
  have split := (stream_exact.2.1 _ _ _ first _).1 whole
  have cut := (stream_exact.2.2 ((mixedSample.flatMap bytes).take 2) _ _ whole).2 within
  exact ⟨whole, split, first, cut⟩

end Descriptor
end SchemaWire
