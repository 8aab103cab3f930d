import SchemaWire.Proofs.Wire.Growing
import Mathlib.Data.List.Chain

/-!
# The extent of a draft

Whatever a program writes, every draft that it goes through on the way holds the buffer that it
began with, and behind that a payload within the bound, no shorter than before.  A single item that
is refused leaves nothing of it behind; and a length that has been written tells how many bytes its
body has written after it, for no body can reach the place that is held for its length.
-/

namespace SchemaWire

open Fallible

namespace Draft

variable {origin draft : Draft}

theorem Grown.written_le (grown : origin.Grown draft) : origin.written ≤ draft.written := by
  obtain ⟨bytes, room, rfl⟩ := grown
  rw [written_add room.begun]
  exact Nat.le_add_right _ _

/-- A draft that has grown behind a buffer holds the buffer, and no more behind it than it may. -/
theorem Grown.extent {buffer : Array UInt8} {limit : Option Nat}
    (grown : (Draft.after buffer limit).Grown draft) :
    draft.buffer.toList.take buffer.size = buffer.toList ∧
      draft.buffer.size = buffer.size + draft.written ∧
      ∀ most, limit = some most → draft.written ≤ most := by
  obtain ⟨bytes, room, rfl⟩ := grown
  rw [written_add room.begun, written_after, Nat.zero_add, size_buffer_add, toList_buffer_add]
  exact ⟨List.take_left' Array.length_toList, rfl, room_after_iff.1 room⟩

end Draft

namespace Writes

variable {write : Writes Unit} {next : Except Fault Unit → Writes Unit} {draft : Draft}

theorem attempt_eq (write : Writes Unit) (draft : Draft) :
    attempt write draft = .ok (write.outcome draft).1 (write.outcome draft).2 := by
  rw [attempt, outcome]
  split <;> rfl

theorem outcome_attempt_bind :
    Writes.outcome (attempt write >>= next) draft =
      (next (write.outcome draft).1).outcome (write.outcome draft).2 := by
  rw [outcome, bind_apply_ok (attempt_eq write draft)]
  rfl

theorem outcome_of_ok {after : Draft} (done : write draft = .ok () after) :
    write.outcome draft = (.ok (), after) := by
  rw [outcome, done]

theorem outcome_of_error {after : Draft} {fault : Fault}
    (failed : write draft = .error fault after) :
    write.outcome draft = (.error fault, after) := by
  rw [outcome, failed]

theorem kept_outcome {holds : Draft → Prop} (kept : Keeps holds write) (held : holds draft) :
    holds (write.outcome draft).2 := by
  cases ran : write draft with
  | ok _ after =>
      rw [outcome_of_ok ran]
      exact (kept draft held).1 () after ran
  | error fault after =>
      rw [outcome_of_error ran]
      exact (kept draft held).2 fault after ran

/-! ## Items that are refused -/

/-- A write that fails leaves the draft as it was. -/
def Stays (write : Writes Unit) : Prop :=
  ∀ ⦃draft fault after⦄, draft.start ≤ draft.buffer.size →
    write draft = .error fault after → after = draft

theorem stays_put (bytes : List UInt8) : Stays (put bytes) := by
  intro draft fault after begun failed
  cases bound : draft.broken? bytes.length with
  | some limit =>
      rw [put_of_broken bound] at failed
      exact (EStateM.Result.error.inj failed).2.symm
  | none => simp [emits_put bytes ⟨begun, bound⟩] at failed

/-- Room for the bytes and their length is asked for before the length is written, so that there is
nothing to take back. -/
theorem stays_byteArray (bytes : Option (List UInt8)) : Stays (byteArray bytes) := by
  cases bytes with
  | none => exact stays_put _
  | some bytes =>
      intro draft fault after begun failed
      cases bound : draft.broken? (4 + bytes.length) with
      | some limit =>
          rw [byteArray, bind_apply_error (reserve_of_broken bound)] at failed
          exact (EStateM.Result.error.inj failed).2.symm
      | none =>
          have room : draft.Room (4 + bytes.length) := ⟨begun, bound⟩
          rcases Nat.lt_or_ge Misfit.lengthMax bytes.length with long | fits
          · rw [byteArray_of_long room long] at failed
            exact (EStateM.Result.error.inj failed).2.symm
          · rw [← length_boxed] at room
            simp [emits_byteArray fits room] at failed

end Writes

/-- A field of one item: a number, an identifier, bytes, or a byte string or a text after its
length. -/
def Field.IsSingle : Field → Prop
  | .byte _ | .bool _ | .int16 _ | .word16 _ | .int32 _ | .word32 _ | .int64 _ | .word64 _
  | .float32 _ | .float64 _ | .uuid _ | .raw _ | .byteArray _ | .text _ => True
  | .named _ | .attributes _ | .extension _ | .extensions _ | .lengthPrefixed _ => False

theorem Field.stays_write : {field : Field} → field.IsSingle → Writes.Stays field.write
  | .byte _, _ | .bool _, _ | .int16 _, _ | .word16 _, _ | .int32 _, _ | .word32 _, _
  | .int64 _, _ | .word64 _, _ | .float32 _, _ | .float64 _, _ | .uuid _, _ | .raw _, _ =>
      Writes.stays_put _
  | .byteArray bytes, _ => Writes.stays_byteArray bytes
  | .text content, _ => Writes.stays_byteArray (some (Utf8.encode content))

/-! ## Bodies after their length -/

namespace Writes

variable {body : Writes Unit} {draft after : Draft}

/-- The length takes a place that was held for it, so that the draft stays as long as the body has
left it. -/
theorem written_outcome_lengthPrefixed (kept : ∀ origin : Draft, Keeps origin.Grown body)
    (room : draft.Room 4) :
    ((lengthPrefixed body).outcome draft).2.written =
      (body.outcome (draft.add [0, 0, 0, 0])).2.written := by
  have boxing := boxing_lengthPrefixed kept room.begun
  rw [outcome]
  generalize lengthPrefixed body draft = result at boxing
  cases boxing with
  | refused broken => simp [room.unbroken] at broken
  | failed _ ran => rw [outcome_of_error ran]
  | long _ ran => rw [outcome_of_ok ran]
  | @whole bytes left ran fits =>
      have begun : (draft.add [0, 0, 0, 0]).start ≤ (draft.add [0, 0, 0, 0]).buffer.size :=
        left.begun
      rw [outcome_of_ok ran, Draft.written_add begun, Draft.written_add room.begun,
        Draft.written_add room.begun, length_boxed, ← Nat.add_assoc]
      rfl

/-- A body that is written after its length is as long as the length tells. -/
theorem eq_add_of_lengthPrefixed (kept : ∀ origin : Draft, Keeps origin.Grown body)
    (begun : draft.start ≤ draft.buffer.size) (done : lengthPrefixed body draft = .ok () after) :
    ∃ count bytes, count.length = 4 ∧ BigEndian.toNat count = bytes.length ∧
      bytes.length ≤ Misfit.lengthMax ∧
      body (draft.add [0, 0, 0, 0]) = .ok () ((draft.add [0, 0, 0, 0]).add bytes) ∧
      after = draft.add (count ++ bytes) := by
  have boxing := boxing_lengthPrefixed kept begun
  rw [done] at boxing
  cases boxing with
  | @whole bytes left ran fits =>
      have small : bytes.length < 256 ^ 4 := Nat.lt_of_le_of_lt fits (by decide)
      refine ⟨BigEndian.ofNat 4 bytes.length, bytes, BigEndian.length_ofNat _ _, ?_, fits, ran, rfl⟩
      rw [BigEndian.toNat_ofNat, Nat.pow_eq, Nat.mod_eq_of_lt small]

end Writes

/-! ## Whole programs -/

namespace Script

variable {origin draft visited : Draft} {body : Script} {next : Except Fault Unit → Script}

theorem drafts_lengthPrefixed_of_room (room : draft.Room 4) :
    (lengthPrefixed body next).drafts draft =
      let result := (Writes.lengthPrefixed body.perform).outcome draft
      draft :: (body.drafts (draft.add [0, 0, 0, 0]) ++ (next result.1).drafts result.2) := by
  have placed := (@Writes.placed_of_room draft 0 room).1
  rw [drafts, placed]

theorem drafts_lengthPrefixed_of_broken {limit : Nat} (broken : draft.broken? 4 = some limit) :
    (lengthPrefixed body next).drafts draft =
      let result := (Writes.lengthPrefixed body.perform).outcome draft
      draft :: (next result.1).drafts result.2 := by
  have refused : Writes.int32 0 draft =
      .error (.framing (.overflow 4 limit draft.written)) draft := Writes.put_of_broken broken
  rw [drafts, refused]
  rfl

theorem head?_drafts (script : Script) (draft : Draft) :
    (script.drafts draft).head? = some draft := by
  induction script with
  | done | field | lengthPrefixed => rfl
  | look next ih => exact ih draft

/-- The last draft that a program goes through is the one that it leaves. -/
theorem getLast?_drafts (script : Script) (draft : Draft) :
    (script.drafts draft).getLast? = some (script.perform.outcome draft).2 := by
  induction script generalizing draft with
  | done result => cases result <;> rfl
  | look next ih => exact ih draft draft
  | field item next ih =>
      rw [drafts, perform, Writes.outcome_attempt_bind, List.getLast?_cons, ih]
      rfl
  | lengthPrefixed body next _ ih =>
      rw [drafts, perform, Writes.outcome_attempt_bind, List.getLast?_cons,
        List.getLast?_append, ih]
      rfl

/-- Every draft that a program goes through has grown from the one that it begins with. -/
theorem grown_of_mem_drafts (script : Script) (grown : origin.Grown draft)
    (member : visited ∈ script.drafts draft) : origin.Grown visited := by
  induction script generalizing draft with
  | done result =>
      obtain rfl : visited = draft := by simpa [drafts] using member
      exact grown
  | look next ih => exact ih draft grown member
  | field item next ih =>
      rcases List.mem_cons.1 member with rfl | later
      · exact grown
      · exact ih _ (Writes.kept_outcome (item.keeps_write origin) grown) later
  | lengthPrefixed body next ihBody ih =>
      have boxed := Writes.kept_outcome (Writes.keeps_lengthPrefixed body.keeps_perform) grown
      cases bound : draft.broken? 4 with
      | some limit =>
          rw [drafts_lengthPrefixed_of_broken bound] at member
          rcases List.mem_cons.1 member with rfl | later
          · exact grown
          · exact ih _ boxed later
      | none =>
          have room : draft.Room 4 := ⟨grown.room.begun, bound⟩
          rw [drafts_lengthPrefixed_of_room room] at member
          rcases List.mem_cons.1 member with rfl | later
          · exact grown
          · rcases List.mem_append.1 later with inner | later
            · exact ihBody (@Draft.Grown.add origin draft [0, 0, 0, 0] grown room) inner
            · exact ih _ boxed later

theorem isChain_cons_of_grown {after : Draft} {drafts : List Draft} (grown : draft.Grown after)
    (head : drafts.head? = some after)
    (chain : drafts.IsChain fun earlier later => earlier.written ≤ later.written) :
    (draft :: drafts).IsChain fun earlier later => earlier.written ≤ later.written := by
  refine chain.cons fun first member => ?_
  rw [head, Option.mem_some] at member
  subst member
  exact grown.written_le

/-- From each draft that a program goes through to the next, the payload does not become shorter. -/
theorem isChain_drafts (script : Script) (room : draft.Room 0) :
    (script.drafts draft).IsChain fun earlier later => earlier.written ≤ later.written := by
  induction script generalizing draft with
  | done result => exact .singleton draft
  | look next ih => exact ih draft room
  | field item next ih =>
      have grown : draft.Grown (item.write.outcome draft).2 :=
        Writes.kept_outcome (item.keeps_write draft) (.refl room)
      exact isChain_cons_of_grown grown (head?_drafts _ _) (ih _ grown.room)
  | lengthPrefixed body next ihBody ih =>
      have boxed : draft.Grown ((Writes.lengthPrefixed body.perform).outcome draft).2 :=
        Writes.kept_outcome (Writes.keeps_lengthPrefixed body.keeps_perform) (.refl room)
      have rest := ih ((Writes.lengthPrefixed body.perform).outcome draft).1 boxed.room
      cases bound : draft.broken? 4 with
      | some limit =>
          rw [drafts_lengthPrefixed_of_broken bound]
          exact isChain_cons_of_grown boxed (head?_drafts _ _) rest
      | none =>
          have place : draft.Room 4 := ⟨room.begun, bound⟩
          have placed : draft.Grown (draft.add [0, 0, 0, 0]) :=
            @Draft.Grown.add draft draft [0, 0, 0, 0] (.refl room) place
          rw [drafts_lengthPrefixed_of_room place]
          apply isChain_cons_of_grown placed
          · rw [List.head?_append, head?_drafts]
            rfl
          apply (ihBody placed.room).append rest
          intro last final first head
          -- What follows the body goes on from a draft as long as the last one of the body.
          rw [getLast?_drafts, Option.mem_some] at final
          rw [head?_drafts, Option.mem_some] at head
          rw [← final, ← head, Writes.written_outcome_lengthPrefixed body.keeps_perform place]

end Script

/-- Whatever a program writes behind a buffer, with whatever bound, failures and bodies that fail
included.  On the way from the draft that it begins with to the one that it leaves, the payload
never becomes shorter; and every draft on the way, be it in the body of a length, holds the buffer
as it was, is longer than it by the payload alone, and keeps to the bound.  Wherever the program is,
a single item that is refused leaves the draft as it was; and if a body is written after its length,
then the draft has four bytes more that tell a number, and as many bytes as this number after them,
which are those that the body has written. -/
theorem writer_bounds (buffer : Array UInt8) (limit : Option Nat) (script : Script) :
    let start := Draft.after buffer limit
    (script.drafts start).head? = some start ∧
      (script.drafts start).getLast? = some (script.perform.outcome start).2 ∧
      (script.drafts start).Pairwise (fun earlier later => earlier.written ≤ later.written) ∧
      ∀ draft ∈ script.drafts start,
        (draft.buffer.toList.take buffer.size = buffer.toList ∧
          draft.buffer.size = buffer.size + draft.written ∧
          ∀ most, limit = some most → draft.written ≤ most) ∧
        (∀ field : Field, field.IsSingle → ∀ fault after,
          field.write draft = .error fault after → after = draft) ∧
        ∀ (body : Script) (after : Draft),
          Writes.lengthPrefixed body.perform draft = .ok () after →
            ∃ count bytes, count.length = 4 ∧ BigEndian.toNat count = bytes.length ∧
              bytes.length ≤ Misfit.lengthMax ∧
              body.perform (draft.add [0, 0, 0, 0]) =
                .ok () ((draft.add [0, 0, 0, 0]).add bytes) ∧
              after = draft.add (count ++ bytes) := by
  intro start
  have empty : start.Room 0 := by
    rw [Draft.room_after_iff]
    intro most _
    exact Nat.zero_le most
  refine ⟨script.head?_drafts start, script.getLast?_drafts start, ?_, ?_⟩
  · have chain := (List.isChain_map Draft.written).2 (script.isChain_drafts empty)
    exact List.pairwise_map.1 chain.pairwise
  · intro draft member
    have grown : start.Grown draft := script.grown_of_mem_drafts (.refl empty) member
    have begun := grown.room.begun
    refine ⟨grown.extent, ?_, ?_⟩
    · intro field single fault after refused
      exact field.stays_write single begun refused
    · intro body after done
      exact Writes.eq_add_of_lengthPrefixed body.keeps_perform begun done

/-- A body in which another fails, and that goes on to a word. -/
def crowdedBody : Script :=
  .lengthPrefixed (.field (.byte 1) fun _ => .done (.error (.encode (.length 0)))) fun _ =>
    .field (.word32 2) fun _ => .done (.ok ())

/-- A draft of twelve bytes at most behind a byte of something else. -/
def crowdedStart : Draft :=
  Draft.after #[7] (some 12)

/-- What the body has made of it when it comes to the word. -/
def crowdedDraft : Draft :=
  ⟨#[7, 0, 0, 0, 0, 0, 0, 0, 0, 1], 1, some 12⟩

/-- The word does not fit and changes nothing; the length of the body then counts the place held for
the other length and the byte behind that. -/
theorem writer_bounds_sample :
    ((Script.lengthPrefixed crowdedBody .done).drafts crowdedStart).map Draft.written =
        [0, 4, 8, 9, 9, 9, 9] ∧
      crowdedDraft ∈ (Script.lengthPrefixed crowdedBody .done).drafts crowdedStart ∧
      crowdedDraft.buffer.toList.take 1 = [7] ∧ crowdedDraft.written ≤ 12 ∧
      (∃ fault after, (Field.word32 2).write crowdedDraft = .error fault after ∧
        after = crowdedDraft) ∧
      Writes.lengthPrefixed crowdedBody.perform crowdedStart =
        .ok () ⟨#[7, 0, 0, 0, 5, 0, 0, 0, 0, 1], 1, some 12⟩ ∧
      ∃ count bytes, count.length = 4 ∧ BigEndian.toNat count = bytes.length ∧
        (⟨#[7, 0, 0, 0, 5, 0, 0, 0, 0, 1], 1, some 12⟩ : Draft) =
          crowdedStart.add (count ++ bytes) := by
  have lengths : ((Script.lengthPrefixed crowdedBody .done).drafts crowdedStart).map
      Draft.written = [0, 4, 8, 9, 9, 9, 9] := rfl
  have member : crowdedDraft ∈ (Script.lengthPrefixed crowdedBody .done).drafts crowdedStart :=
    List.mem_of_getElem? (i := 3) rfl
  have refused : (Field.word32 2).write crowdedDraft =
      .error (.framing (.overflow 4 12 9)) crowdedDraft := rfl
  have done : Writes.lengthPrefixed crowdedBody.perform crowdedStart =
      .ok () ⟨#[7, 0, 0, 0, 5, 0, 0, 0, 0, 1], 1, some 12⟩ := rfl
  obtain ⟨-, -, -, every⟩ :=
    writer_bounds #[7] (some 12) (.lengthPrefixed crowdedBody .done)
  obtain ⟨⟨kept, -, bound⟩, stays, -⟩ := every crowdedDraft member
  have same := stays (.word32 2) trivial _ _ refused
  obtain ⟨count, bytes, four, counted, -, -, whole⟩ :=
    (every crowdedStart List.mem_cons_self).2.2 crowdedBody _ done
  exact ⟨lengths, member, kept, bound 12 rfl, ⟨_, _, refused, same⟩, done,
    count, bytes, four, counted, whole⟩

end SchemaWire
