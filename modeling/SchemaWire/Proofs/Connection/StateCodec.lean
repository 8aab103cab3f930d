import SchemaWire.Proofs.Connection.Failure
import SchemaWire.Proofs.Resolution.Generations

/-!
# The codec of the session state

A server may describe the state of a session several times, in one generation of the schema or in
several.  What counts is the last description that was accepted: the codec of the state is the one
to which it resolved, or there is none, and the cache is in its generation and holds the codec.
Codecs of earlier descriptions leave no trace in the connection.
-/

namespace SchemaWire

namespace Cache

open Resolution

variable {cache after : Cache} {stream : List UInt8} {generation : Uuid} {codec : Codec}

theorem valid_of_resolve (valid : cache.Valid)
    (done : resolve stream generation cache = .ok codec after) : after.Valid := by
  have follows := follows_apply cache (.resolve stream generation)
  rw [apply_resolve_eq_ok.2 done] at follows
  exact follows.valid valid

theorem generation_of_resolve (done : resolve stream generation cache = .ok codec after) :
    after.generation = some generation := by
  obtain ⟨resolved, _, _, -, rfl, -⟩ := resolve_eq_ok_iff.1 done
  rw [generation_insertAll, generation_enter]

/-- A codec to which a stream resolves is found under its own type from then on. -/
theorem lookup_of_resolve (valid : cache.Valid)
    (done : resolve stream generation cache = .ok codec after) :
    after.lookup generation codec.typeId = some codec := by
  have validToo := valid_of_resolve valid done
  have current := generation_of_resolve done
  obtain ⟨_, type, own, described, rfl, told⟩ := resolve_eq_ok_iff.1 done
  obtain ⟨descriptors, slots, -, ran, rfl, found⟩ := describe_eq_ok_iff.1 described
  obtain ⟨paired, -⟩ := linked_of_stream (valid.enter generation).keyed ran
  obtain ⟨held, inside⟩ := @exists_find?_insertAll (cache.enter generation) _ _ _
    (root_mem_built paired found)
  rw [inside, Option.getD_some] at told
  subst told
  rw [validToo.keyed type held inside]
  exact lookup_eq_some_iff.2 ⟨current, inside⟩

end Cache

namespace Connection

variable {before after : Connection} {cache grown : Cache} {message : StateDataDescription}
  {codec : Option Codec} {history : List (Cache × StateDataDescription)}

/-! ## What a description leaves behind -/

theorem Describes.valid (noted : Describes cache message grown codec) (valid : cache.Valid) :
    grown.Valid := by
  cases noted with
  | empty => exact valid.enter message.type
  | resolved _ found => exact Cache.valid_of_resolve valid found
  | unsupported _ refused =>
      rw [← Cache.resolve_eq_error refused]
      exact valid.enter message.type

theorem Describes.generation (noted : Describes cache message grown codec) :
    grown.generation = some message.type := by
  cases noted with
  | empty => exact Cache.generation_enter cache message.type
  | resolved _ found => exact Cache.generation_of_resolve found
  | unsupported _ refused =>
      rw [← Cache.resolve_eq_error refused]
      exact Cache.generation_enter cache message.type

theorem Describes.eq_some_iff (noted : Describes cache message grown codec) (found : Codec) :
    codec = some found ↔
      message.stream ≠ [] ∧ Cache.resolve message.stream message.type cache = .ok found grown := by
  cases noted with
  | empty nothing => simp [nothing]
  | resolved something resolved => simp [something, resolved]
  | unsupported _ refused => simp [refused]

theorem Describes.eq_none_iff (noted : Describes cache message grown codec) :
    codec = none ↔
      message.stream = [] ∨ ∃ type cause,
        Cache.resolve message.stream message.type cache =
          .error (.unsupportedShape type cause) grown := by
  cases noted with
  | empty nothing => simp [nothing]
  | resolved something resolved => simp [something, resolved]
  | unsupported _ refused => simp [refused]

/-! ## The descriptions of a run -/

/-- The description of the session state that a call has a connection accept, with the cache that
it meets. -/
def described? (connection : Connection) : Call → Option (Cache × StateDataDescription)
  | .start => none
  | .step frame =>
      match (connection.apply (.step frame)).1, frame.readAs StateDataDescription.format with
      | .ok _, .ok message => some (connection.cache, message)
      | _, _ => none

/-- The descriptions of the session state that a connection accepts from calls in turn, each with
the cache that it meets. -/
def descriptions (connection : Connection) : List Call → List (Cache × StateDataDescription)
  | [] => []
  | call :: calls =>
      (connection.described? call).toList ++ (connection.apply call).2.descriptions calls

/-- What a call makes of the cache and of the codec of the state: a connection that is not given up
keeps both, but for a description, which tells both anew. -/
inductive Notes (before after : Connection) : Option (Cache × StateDataDescription) → Prop where
  | lost (failed : after.phase = .failed) : Notes before after none
  | silent (alive : before.phase ≠ .failed) (cache : after.cache = before.cache)
      (codec : after.stateCodec = before.stateCodec) : Notes before after none
  | noted {message : StateDataDescription} (alive : before.phase ≠ .failed)
      (described : Describes before.cache message after.cache after.stateCodec) :
      Notes before after (some (before.cache, message))

theorem described?_of_ne_ok {call : Call}
    (refused : ∀ action, (before.apply call).1 ≠ .ok action) : before.described? call = none := by
  cases call with
  | start => rfl
  | step frame =>
      rw [described?]
      split
      case h_1 action _ accepted _ => exact absurd accepted (refused action)
      case h_2 => rfl

/-- Without a description, the cache and the codec stay as they are. -/
theorem notes_none (cache : after.cache = before.cache)
    (codec : after.stateCodec = before.stateCodec)
    (lost : before.phase = .failed → after.phase = .failed) : Notes before after none := by
  by_cases failed : before.phase = .failed
  · exact .lost (lost failed)
  · exact .silent failed cache codec

theorem notes_of_accepts {frame : Frame} {action : Action}
    (accepted : Accepts before frame action after) :
    Notes before after (before.described? (.step frame)) := by
  have answered : (before.apply (.step frame)).1 = .ok action := by
    rw [apply_step_eq_ok.2 accepted]
  have undescribed {α : Type} {format : Format α} {message : α}
      (read : frame.readAs format = .ok message)
      (other : format.opcode ≠ StateDataDescription.format.opcode) :
      before.described? (.step frame) = none := by
    rw [described?, Frame.readAs, if_neg (opcode_ne_of_readAs read other), answered]
  cases accepted with
  | described phase read noted =>
      rw [described?, answered, read]
      exact .noted (by simp [phase]) noted
  | notice read =>
      rw [undescribed read (by decide)]
      exact notes_none rfl rfl id
  | agreed phase read | trusted phase read | begun phase read | challenged phase read
  | verified phase read | authenticated phase read | keyed phase read | told phase read
  | readied phase read | changed phase read =>
      rw [undescribed read (by decide)]
      exact .silent (by simp [phase]) rfl rfl

theorem notes_apply (before : Connection) (call : Call) :
    Notes before (before.apply call).2 (before.described? call) := by
  generalize answered : (before.apply call).1 = answer
  have follows := follows_apply before call
  rw [answered] at follows
  generalize (before.apply call).2 = after at follows
  cases follows with
  | opened phase | unopened phase => exact .silent (by simp [phase]) rfl rfl
  | accepted accepted => exact notes_of_accepts accepted
  | refused =>
      rw [described?_of_ne_ok (by simp [answered])]
      exact notes_none rfl rfl id
  | givenUp =>
      rw [described?_of_ne_ok (by simp [answered])]
      exact .lost rfl

/-! ## Runs -/

/-- A connection that has not been given up has the cache and the codec that the last of some
descriptions has left behind. -/
structure Reflects (connection : Connection) (history : List (Cache × StateDataDescription)) :
    Prop where
  /-- Its cache is valid. -/
  valid : connection.phase ≠ .failed → connection.cache.Valid
  /-- So was the one that the last description has met. -/
  last : connection.phase ≠ .failed → ∀ met message, history.getLast? = some (met, message) →
    met.Valid ∧ Describes met message connection.cache connection.stateCodec

theorem Reflects.step {entry : Option (Cache × StateDataDescription)}
    (notes : Notes before after entry) (reflects : before.Reflects history) :
    after.Reflects (history ++ entry.toList) := by
  cases notes with
  | lost failed =>
      constructor
      · intro alive
        exact absurd failed alive
      · intro alive
        exact absurd failed alive
  | silent alive cache codec =>
      rw [Option.toList_none, List.append_nil]
      constructor
      · intro _
        rw [cache]
        exact reflects.valid alive
      · intro _
        rw [cache, codec]
        exact reflects.last alive
  | noted alive described =>
      have valid := reflects.valid alive
      constructor
      · intro _
        exact described.valid valid
      · intro _ met message final
        rw [Option.toList_some, List.getLast?_concat] at final
        obtain ⟨rfl, rfl⟩ := Prod.mk.inj (Option.some.inj final)
        exact ⟨valid, described⟩

theorem reflects_after (reflects : before.Reflects history) (calls : List Call) :
    (before.after calls).Reflects (history ++ before.descriptions calls) := by
  induction calls generalizing before history with
  | nil =>
      rw [descriptions, List.append_nil]
      exact reflects
  | cons call calls ih =>
      rw [descriptions, ← List.append_assoc]
      exact ih (reflects.step (notes_apply before call))

/-- Whatever calls a connection has had that alone uses its cache, and has not been given up: once a
description of the session state was accepted, the cache is in the generation of the last of them.
The connection has a codec just if that description had a stream and this resolved with the cache it
met, and has the codec to which it did; the cache, as the description has left it, finds the codec
under its own type.  There is none just if the stream was empty or described what is not supported,
whatever was described before. -/
theorem state_codec_of_last_description (settings : Settings) (random : List UInt8)
    (earlier : List Cache.Call) (calls : List Call) (met : Cache) (message : StateDataDescription)
    (alive : ((new settings random (Cache.empty.after earlier)).after calls).phase ≠ .failed)
    (last : ((new settings random (Cache.empty.after earlier)).descriptions calls).getLast? =
      some (met, message)) :
    let connection := (new settings random (Cache.empty.after earlier)).after calls
    connection.cache.generation = some message.type ∧
      (∀ codec, connection.stateCodec = some codec ↔
        message.stream ≠ [] ∧
          Cache.resolve message.stream message.type met = .ok codec connection.cache) ∧
      (∀ codec, connection.stateCodec = some codec →
        connection.cache.lookup message.type codec.typeId = some codec) ∧
      (connection.stateCodec = none ↔
        message.stream = [] ∨ ∃ type cause,
          Cache.resolve message.stream message.type met =
            .error (.unsupportedShape type cause) connection.cache) := by
  intro connection
  have start : (new settings random (Cache.empty.after earlier)).Reflects [] := by
    constructor
    · intro _
      exact Cache.valid_after (Cache.valid_blank none) earlier
    · simp
  obtain ⟨valid, noted⟩ := (reflects_after start calls).last alive met message last
  refine ⟨noted.generation, noted.eq_some_iff, ?_, noted.eq_none_iff⟩
  intro codec held
  obtain ⟨-, resolved⟩ := (noted.eq_some_iff codec).1 held
  exact Cache.lookup_of_resolve valid resolved

/-- A call that describes the session state. -/
def describing (type : Uuid) (stream : List UInt8) : Call :=
  .step ⟨StateDataDescription.format.opcode,
    type.bytes ++ [0, 0, 0, stream.length.toUInt8] ++ stream⟩

/-- A connection on which nothing has been sent. -/
def freshSample : Connection := new {} (List.replicate 24 0) .empty

/-- Calls that open it and describe its state as a set of texts. -/
def describedSample : List Call :=
  [.start, .step ⟨Authentication.format.opcode, [0, 0, 0, 0]⟩,
    describing (.ofLow 0xA) Cache.streamSample]

/-- A codec comes with a description, and goes with an empty one in the next generation. -/
theorem state_codec_of_last_description_sample :
    let first := freshSample.after describedSample
    let last := freshSample.after (describedSample ++ [describing (.ofLow 0xB) []])
    first.phase = .waitingReady ∧ first.stateCodec = some Cache.codecSample ∧
      first.cache.lookup (.ofLow 0xA) Cache.codecSample.typeId = some Cache.codecSample ∧
      last.phase = .waitingReady ∧ last.stateCodec = none := by
  have codec : (freshSample.after describedSample).stateCodec = some Cache.codecSample := rfl
  obtain ⟨-, -, found, -⟩ := state_codec_of_last_description {} (List.replicate 24 0) []
    describedSample .empty ⟨.ofLow 0xA, Cache.streamSample⟩ (by decide) rfl
  obtain ⟨-, -, -, absent⟩ := state_codec_of_last_description {} (List.replicate 24 0) []
    (describedSample ++ [describing (.ofLow 0xB) []]) (freshSample.after describedSample).cache
    ⟨.ofLow 0xB, []⟩ (by decide) rfl
  exact ⟨rfl, codec, found _ codec, rfl, absent.2 (.inl rfl)⟩

end Connection
end SchemaWire
