import Mathlib.Data.List.Induction
import SchemaWire.Cache.Run
import SchemaWire.Proofs.Resolution.Linking

/-!
# Generations of a cache

A cache holds what was resolved since its generation was entered.  A call either leaves the
generation, and then nothing of it stays, or it keeps all entries and adds to them only what a
stream builds that resolves:

`entries before ⊆ entries after ⊆ entries before ∪ codecs built`

Whatever is in a cache was put there by one of the calls since, and a stream that has resolved
once resolves to the same codec from then on.
-/

namespace SchemaWire

open Descriptor

namespace Resolution

variable {known : Uuid → Option Codec} {slots : Array Slot} {descriptor : Descriptor}

/-- A descriptor has a known codec, if it is of a kind that has codecs. -/
def Settled (known : Uuid → Option Codec) (descriptor : Descriptor) : Prop :=
  descriptor.isCoded = true → ∃ held, known descriptor.id = some held

theorem exists_resolve_of_settled (settled : Settled known descriptor) (slots : Array Slot) :
    ∃ slot, resolve known slots descriptor = .ok slot := by
  cases coded : descriptor.isCoded with
  | false =>
      rcases resolve_cases known slots descriptor with fresh | ⟨held, -, -, reused⟩
      · obtain ⟨slot, built, -⟩ := @build_of_not_coded _ slots coded
        exact ⟨slot, fresh.trans built⟩
      · exact ⟨.codec held, reused⟩
  | true =>
      obtain ⟨held, there⟩ := settled coded
      exact ⟨.codec held, by rw [resolve, isRemark_of_isCoded coded, there]⟩

theorem exists_resolveAll_of_settled {rest : List Descriptor}
    (settled : ∀ descriptor ∈ rest, Settled known descriptor) (slots : Array Slot) :
    ∃ final, resolveAll known slots rest = .ok final := by
  induction rest generalizing slots with
  | nil => exact ⟨slots, rfl⟩
  | cons descriptor rest ih =>
      rw [List.forall_mem_cons] at settled
      obtain ⟨slot, resolved⟩ := exists_resolve_of_settled settled.1 slots
      rw [resolveAll, resolved]
      exact ih settled.2 (slots.push slot)

end Resolution

namespace Cache

open Resolution

variable {cache before after : Cache} {stream : List UInt8} {generation type : Uuid}
  {codec : Codec} {codecs : List (Uuid × Codec)}

/-! ## Valid caches -/

/-- The codecs of a cache are of the types under which it holds them, one for each type. -/
structure Valid (cache : Cache) : Prop where
  /-- A codec is held under its own type. -/
  typed : ∀ entry ∈ cache.entries, entry.2.typeId = entry.1
  /-- No type has two of them. -/
  distinct : (cache.entries.map Prod.fst).Nodup

theorem Valid.keyed (valid : cache.Valid) : Keyed cache.find? := by
  intro type codec found
  exact valid.typed (type, codec) (mem_of_lookup found)

theorem valid_blank (generation : Option Uuid) : Valid ⟨generation, []⟩ :=
  ⟨by simp, List.nodup_nil⟩

theorem Valid.enter (valid : cache.Valid) (generation : Uuid) : (cache.enter generation).Valid := by
  by_cases current : cache.generation = some generation
  · rwa [enter_of_current current]
  · rw [enter_of_other current]
    exact valid_blank (some generation)

theorem Valid.insert (valid : cache.Valid) (typed : codec.typeId = type) :
    (cache.insert type codec).Valid := by
  rw [Cache.insert]
  split
  case h_1 => exact valid
  case h_2 absent =>
    have fresh : type ∉ cache.entries.map Prod.fst := by
      intro member
      obtain ⟨⟨_, held⟩, inside, rfl⟩ := List.mem_map.1 member
      have found := lookup_isSome_iff_mem.2 ⟨held, inside⟩
      rw [find?] at absent
      simp [absent] at found
    constructor
    · intro entry member
      rcases List.mem_cons.1 member with rfl | member
      · exact typed
      · exact valid.typed entry member
    · exact List.nodup_cons.2 ⟨fresh, valid.distinct⟩

theorem Valid.insertAll (valid : cache.Valid)
    (typed : ∀ type codec, (type, codec) ∈ codecs → codec.typeId = type) :
    (cache.insertAll codecs).Valid := by
  induction codecs generalizing cache with
  | nil => exact valid
  | cons entry codecs ih =>
      have first := valid.insert (typed entry.1 entry.2 List.mem_cons_self)
      refine ih first ?_
      intro type codec member
      exact typed type codec (List.mem_cons_of_mem entry member)

/-- Codecs of types that are there already change nothing. -/
theorem insertAll_of_held (held : ∀ type codec, (type, codec) ∈ codecs →
    ∃ other, cache.find? type = some other) : cache.insertAll codecs = cache := by
  induction codecs with
  | nil => rfl
  | cons entry codecs ih =>
      obtain ⟨other, found⟩ := held entry.1 entry.2 List.mem_cons_self
      have same : cache.insert entry.1 entry.2 = cache := by rw [insert, found]
      rw [insertAll, List.foldl_cons, same]
      refine ih ?_
      intro type codec member
      exact held type codec (List.mem_cons_of_mem entry member)

theorem generation_enter (cache : Cache) (generation : Uuid) :
    (cache.enter generation).generation = some generation := by
  by_cases current : cache.generation = some generation
  · rwa [enter_of_current current]
  · rw [enter_of_other current]

/-! ## What a call does -/

/-- A call adds what a stream builds that resolves, or fails to, or it enters a generation, or only
looks. -/
inductive Follows (before : Cache) : Call → Answer → Cache → Prop where
  | resolved {stream : List UInt8} {generation type : Uuid} {own root : Codec}
      {resolved : List (Descriptor × Slot)} {after : Cache}
      (described : (before.enter generation).describe stream = .ok (resolved, type, own))
      (filled : (before.enter generation).insertAll (built resolved) = after)
      (told : (after.find? type).getD own = root) :
      Follows before (.resolve stream generation) (.resolved (.ok root)) after
  | refused {stream : List UInt8} {generation : Uuid} {fault : Fault} :
      Follows before (.resolve stream generation) (.resolved (.error fault))
        (before.enter generation)
  | entered {generation : Uuid} {changed : Bool}
      (told : changed = true ↔ before.generation ≠ some generation) :
      Follows before (.enter generation) (.entered changed) (before.enter generation)
  | looked {generation type : Uuid} :
      Follows before (.lookup generation type) (.found (before.lookup generation type)) before

/-- A stream that does not resolve leaves nothing behind but the generation. -/
theorem resolve_eq_error {fault : Fault}
    (failed : resolve stream generation cache = .error fault after) :
    cache.enter generation = after := by
  rw [resolve] at failed
  cases described : (cache.enter generation).describe stream with
  | error cause =>
      simp only [described] at failed
      exact (EStateM.Result.error.inj failed).2
  | ok description => simp [described] at failed

theorem follows_apply (before : Cache) (call : Call) :
    Follows before call (before.apply call).1 (before.apply call).2 := by
  cases call with
  | enter generation => exact .entered (fst_switch before generation)
  | lookup generation type => exact .looked
  | resolve stream generation =>
      cases done : resolve stream generation before with
      | ok root after =>
          obtain ⟨resolved, type, own, described, filled, told⟩ := resolve_eq_ok_iff.1 done
          simp only [apply, done]
          exact .resolved described filled told
      | error fault after =>
          obtain rfl := resolve_eq_error done
          simp only [apply, done]
          exact .refused

theorem apply_resolve_eq_ok :
    before.apply (.resolve stream generation) = (.resolved (.ok codec), after) ↔
      resolve stream generation before = .ok codec after := by
  rw [apply]
  cases resolve stream generation before <;> simp

theorem apply_resolve_eq_error {fault : Fault} :
    before.apply (.resolve stream generation) = (.resolved (.error fault), after) ↔
      resolve stream generation before = .error fault after := by
  rw [apply]
  cases resolve stream generation before <;> simp

/-- What a stream builds that resolves with a valid cache. -/
theorem sound_of_describe {resolved : List (Descriptor × Slot)} {own : Codec} (valid : cache.Valid)
    (described : cache.describe stream = .ok (resolved, type, own)) :
    Sound cache.find? (built resolved) := by
  obtain ⟨descriptors, slots, -, ran, rfl, -⟩ := describe_eq_ok_iff.1 described
  obtain ⟨paired, linked⟩ := linked_of_stream valid.keyed ran
  exact linked.sound paired

theorem Follows.valid {call : Call} {answer : Answer} (follows : Follows before call answer after)
    (valid : before.Valid) : after.Valid := by
  cases follows with
  | @resolved stream generation _ _ _ _ _ described filled =>
      have entered := valid.enter generation
      rw [← filled]
      exact entered.insertAll (sound_of_describe entered described).typed
  | refused => exact valid.enter _
  | entered => exact valid.enter _
  | looked => exact valid

theorem valid_after (valid : cache.Valid) (calls : List Call) : (cache.after calls).Valid := by
  induction calls generalizing cache with
  | nil => exact valid
  | cons call calls ih => exact ih ((follows_apply cache call).valid valid)

/-! ## Within a generation -/

/-- A call that does not change the generation keeps every codec. -/
theorem Follows.keeps {call : Call} {answer : Answer} (follows : Follows before call answer after)
    (stays : after.generation = before.generation) (found : before.find? type = some codec) :
    after.find? type = some codec := by
  cases follows with
  | resolved described filled =>
      rw [← filled, generation_insertAll, generation_enter] at stays
      rw [← filled, find?_insertAll, enter_of_current stays.symm, found, Option.some_or]
  | refused =>
      rw [generation_enter] at stays
      rwa [enter_of_current stays.symm]
  | entered =>
      rw [generation_enter] at stays
      rwa [enter_of_current stays.symm]
  | looked => exact found

theorem find?_after {calls : List Call} (stays : cache.Stays calls)
    (found : cache.find? type = some codec) : (cache.after calls).find? type = some codec := by
  induction calls generalizing cache with
  | nil => exact found
  | cons call calls ih =>
      obtain ⟨same, rest⟩ := stays
      exact ih rest ((follows_apply cache call).keeps same found)

theorem generation_after {calls : List Call} (stays : cache.Stays calls) :
    (cache.after calls).generation = cache.generation := by
  induction calls generalizing cache with
  | nil => rfl
  | cons call calls ih =>
      obtain ⟨same, rest⟩ := stays
      rw [after, ih rest, same]

/-- A call belongs to a generation unless it goes over to another one. -/
def Call.Within (generation : Uuid) : Call → Prop
  | .resolve _ other | .enter other => other = generation
  | .lookup _ _ => True

theorem Follows.within {call : Call} {answer : Answer}
    (follows : Follows before call answer after) (current : before.generation = some generation)
    (within : call.Within generation) : after.generation = some generation := by
  cases follows with
  | resolved described filled =>
      rw [← filled, generation_insertAll, generation_enter]
      exact congrArg some within
  | refused =>
      rw [generation_enter]
      exact congrArg some within
  | entered =>
      rw [generation_enter]
      exact congrArg some within
  | looked => exact current

theorem stays_of_within {calls : List Call} (current : cache.generation = some generation)
    (within : ∀ call ∈ calls, call.Within generation) :
    cache.Stays calls ∧ (cache.after calls).generation = some generation := by
  induction calls generalizing cache with
  | nil => exact ⟨trivial, current⟩
  | cons call calls ih =>
      obtain ⟨first, rest⟩ := List.forall_mem_cons.1 within
      have next := (follows_apply cache call).within current first
      obtain ⟨stays, last⟩ := ih next rest
      exact ⟨⟨next.trans current.symm, stays⟩, last⟩

/-! ## Where the codecs come from -/

theorem lookup_eq_some_iff :
    cache.lookup generation type = some codec ↔
      cache.generation = some generation ∧ cache.find? type = some codec := by
  rw [lookup]
  split
  case isTrue current => simp [current]
  case isFalse other => simp [other]

theorem lookup_of_enter {other : Uuid}
    (found : (cache.enter other).lookup generation type = some codec) :
    cache.lookup generation type = some codec ∧
      (cache.enter other).generation = cache.generation := by
  by_cases current : cache.generation = some other
  · rw [enter_of_current current] at found ⊢
    exact ⟨found, rfl⟩
  · rw [enter_of_other current] at found
    obtain ⟨-, held⟩ := lookup_eq_some_iff.1 found
    simp [find?] at held

theorem find?_enter_of_lookup (absent : cache.lookup generation type = none) :
    (cache.enter generation).find? type = none := by
  rw [lookup] at absent
  split at absent
  case isTrue current => rwa [enter_of_current current]
  case isFalse other => rw [enter_of_other other, find?, List.lookup_nil]

/-- A codec that is found after a call was found before it, in the same generation, or the call is
one that has resolved a stream in the generation. -/
theorem Follows.lookup_cases {call : Call} {answer : Answer}
    (follows : Follows before call answer after)
    (found : after.lookup generation type = some codec) :
    (before.lookup generation type = some codec ∧ after.generation = before.generation) ∨
      (before.lookup generation type = none ∧
        ∃ stream root, call = .resolve stream generation ∧ answer = .resolved (.ok root)) := by
  cases follows with
  | @resolved stream other _ _ root _ _ described filled told =>
      obtain ⟨current, inside⟩ := lookup_eq_some_iff.1 found
      have entered : after.generation = some other := by
        rw [← filled, generation_insertAll, generation_enter]
      obtain rfl := Option.some.inj (entered.symm.trans current)
      cases there : before.lookup other type with
      | none => exact .inr ⟨rfl, stream, root, rfl, rfl⟩
      | some held =>
          obtain ⟨already, kept⟩ := lookup_eq_some_iff.1 there
          have same := current.trans already.symm
          have still := (Follows.resolved described filled told).keeps same kept
          rw [still] at inside
          exact .inl ⟨inside, same⟩
  | refused => exact .inl (lookup_of_enter found)
  | entered => exact .inl (lookup_of_enter found)
  | looked => exact .inl ⟨found, rfl⟩

/-- A codec has entered a cache that was empty before some calls: by one of them a stream was
resolved in a generation, this brought the codec for a type that had none, and since then the
generation has not changed. -/
def Entered (calls : List Call) (generation type : Uuid) (codec : Codec) : Prop :=
  ∃ before stream root after later, calls = before ++ .resolve stream generation :: later ∧
    (empty.after before).apply (.resolve stream generation) = (.resolved (.ok root), after) ∧
    (empty.after before).lookup generation type = none ∧
    after.lookup generation type = some codec ∧ after.Stays later

theorem after_of_apply {call : Call} {answer : Answer} {calls : List Call}
    (done : (cache.after calls).apply call = (answer, after)) (later : List Call) :
    cache.after (calls ++ call :: later) = after.after later := by
  rw [after_append, after_cons, done]

theorem entered_of_lookup {calls : List Call}
    (found : (empty.after calls).lookup generation type = some codec) :
    Entered calls generation type codec := by
  induction calls using List.reverseRecOn with
  | nil => simp [lookup, empty] at found
  | append_singleton calls call ih =>
      rw [after_append] at found
      have step := follows_apply (empty.after calls) call
      rcases step.lookup_cases found with ⟨held, same⟩ | ⟨absent, stream, root, rfl, told⟩
      · obtain ⟨before, stream, root, after, later, rfl, resolved, absent, brought, stays⟩ :=
          ih held
        rw [after_of_apply resolved later] at same
        have still := (stays_append after later [call]).2 ⟨stays, same, trivial⟩
        exact ⟨before, stream, root, after, later ++ [call], by simp, resolved, absent, brought,
          still⟩
      · exact ⟨calls, stream, root, _, [], rfl, Prod.ext told rfl, absent, found, trivial⟩

/-! ## Streams that have resolved before -/

/-- A stream whose descriptors all have what they need in a cache resolves to the codec that is
there for its root, and adds nothing. -/
theorem resolve_of_settled {descriptors : List Descriptor} {position : Nat}
    {descriptor : Descriptor} (valid : cache.Valid) (current : cache.generation = some generation)
    (parsed : Descriptor.ofStream stream = .ok descriptors)
    (settled : ∀ descriptor ∈ descriptors, Settled cache.find? descriptor)
    (isRoot : IsRoot descriptors position) (present : descriptors[position]? = some descriptor)
    (told : descriptor.isRemark = false) (there : cache.find? descriptor.id = some codec) :
    resolve stream generation cache = .ok codec cache := by
  obtain ⟨slots, ran⟩ := exists_resolveAll_of_settled settled #[]
  obtain ⟨paired, linked⟩ := linked_of_stream valid.keyed ran
  obtain ⟨slot, filled⟩ := exists_slot paired present
  have held := (linked position descriptor slot present filled).reused codec told there
  have found := (root_eq_ok_iff paired).2
    ⟨position, descriptor, slot, isRoot, present, filled, rfl, held⟩
  have added : cache.insertAll (built (descriptors.zip slots.toList)) = cache := by
    refine insertAll_of_held fun type own member => ?_
    obtain ⟨position, source, slot, present, filled, rfl, held⟩ := mem_built_iff.1 member
    have stands := linked position source slot present filled
    cases absent : cache.find? source.id with
    | some other => exact ⟨other, rfl⟩
    | none =>
        obtain ⟨other, there⟩ := settled source (List.mem_of_getElem? present)
          (stands.made own held absent).1
        simp [absent] at there
  rw [resolve_eq_ok_iff, enter_of_current current]
  have described := describe_eq_ok_iff.2 ⟨descriptors, slots, parsed, ran, rfl, found⟩
  exact ⟨_, _, _, described, added, by rw [there, Option.getD_some]⟩

theorem exists_find?_insertAll (member : (type, codec) ∈ codecs) :
    ∃ held, (cache.insertAll codecs).find? type = some held := by
  obtain ⟨first, found⟩ := Option.isSome_iff_exists.1 (lookup_isSome_iff_mem.2 ⟨codec, member⟩)
  rw [find?_insertAll, found]
  cases cache.find? type with
  | none => exact ⟨first, rfl⟩
  | some held => exact ⟨held, rfl⟩

/-- A stream that has resolved to a codec resolves to it again with any valid cache that has kept
what was there then, and leaves that cache as it is. -/
theorem resolve_again {later : Cache} (valid : before.Valid) (validToo : later.Valid)
    (done : resolve stream generation before = .ok codec after)
    (current : later.generation = some generation)
    (kept : ∀ type held, after.find? type = some held → later.find? type = some held) :
    resolve stream generation later = .ok codec later := by
  obtain ⟨_, type, own, described, rfl, told⟩ := resolve_eq_ok_iff.1 done
  obtain ⟨descriptors, slots, parsed, ran, rfl, found⟩ := describe_eq_ok_iff.1 described
  obtain ⟨paired, linked⟩ := linked_of_stream (valid.enter generation).keyed ran
  obtain ⟨position, root, slot, isRoot, present, filled, rfl, held⟩ :=
    (root_eq_ok_iff paired).1 found
  have there : later.find? root.id = some codec := by
    obtain ⟨first, inside⟩ := exists_find?_insertAll
      (mem_built_iff.2 ⟨position, root, slot, present, filled, rfl, held⟩)
    rw [inside, Option.getD_some] at told
    rw [told] at inside
    exact kept root.id codec inside
  have notRemark := (linked position root slot present filled).not_isRemark held
  refine resolve_of_settled validToo current parsed ?_ isRoot present notRemark there
  intro descriptor member coded
  obtain ⟨position, present⟩ := List.mem_iff_getElem?.1 member
  obtain ⟨slot, filled⟩ := exists_slot paired present
  obtain ⟨own, held⟩ := (linked position descriptor slot present filled).coded coded
  obtain ⟨first, inside⟩ := exists_find?_insertAll
    (mem_built_iff.2 ⟨position, descriptor, slot, present, filled, rfl, held⟩)
  exact ⟨first, kept descriptor.id first inside⟩

/-- Whatever was called on a cache that was empty at first: its codecs are of the types under which
it holds them, one for each; it gives codecs only in its own generation, and only those that have
entered it since the generation has; they stay as long as the generation does; a stream that does
not resolve changes nothing but the generation; and one that resolves does so again, to the same
codec and without a change, after any calls within the generation. -/
theorem generation_discipline (calls : List Call) :
    let cache := empty.after calls
    (∀ entry ∈ cache.entries, entry.2.typeId = entry.1) ∧
      (cache.entries.map Prod.fst).Nodup ∧
      (∀ generation type codec, cache.lookup generation type = some codec →
        cache.generation = some generation ∧ Entered calls generation type codec) ∧
      (∀ later type codec, cache.Stays later → cache.find? type = some codec →
        (cache.after later).find? type = some codec) ∧
      (∀ stream generation fault left,
        cache.apply (.resolve stream generation) = (.resolved (.error fault), left) →
          (cache.generation = some generation → left = cache) ∧
            (cache.generation ≠ some generation → left = ⟨some generation, []⟩)) ∧
      ∀ stream generation codec held later,
        cache.apply (.resolve stream generation) = (.resolved (.ok codec), held) →
          (∀ call ∈ later, call.Within generation) →
            (held.after later).apply (.resolve stream generation) =
              (.resolved (.ok codec), held.after later) := by
  intro cache
  have valid : cache.Valid := valid_after (valid_blank none) calls
  refine ⟨valid.typed, valid.distinct, ?_, ?_, ?_, ?_⟩
  · intro generation type codec found
    exact ⟨(lookup_eq_some_iff.1 found).1, entered_of_lookup found⟩
  · intro later type codec stays found
    exact find?_after stays found
  · intro stream generation fault left failed
    obtain rfl := resolve_eq_error (apply_resolve_eq_error.1 failed)
    exact ⟨enter_of_current, enter_of_other⟩
  · intro stream generation codec held later done within
    have done := apply_resolve_eq_ok.1 done
    obtain ⟨resolved, type, own, described, filled, told⟩ := resolve_eq_ok_iff.1 done
    have validHeld : held.Valid := (Follows.resolved described filled told).valid valid
    have entered : held.generation = some generation := by
      rw [← filled, generation_insertAll, generation_enter]
    obtain ⟨stays, current⟩ := stays_of_within entered within
    have again := resolve_again valid (valid_after validHeld later) done current
      fun type held found => find?_after stays found
    exact apply_resolve_eq_ok.2 again

/-- A set of texts that has been resolved is there, and a stream that describes nothing does not
keep it from being resolved again. -/
theorem generation_discipline_sample :
    Entered [.resolve streamSample (.ofLow 0xA)] (.ofLow 0xA) (.ofLow 0x5E7) codecSample ∧
      ∃ held, empty.apply (.resolve streamSample (.ofLow 0xA)) =
          (.resolved (.ok codecSample), held) ∧
        (held.after [.resolve [] (.ofLow 0xA)]).apply (.resolve streamSample (.ofLow 0xA)) =
          (.resolved (.ok codecSample), held.after [.resolve [] (.ofLow 0xA)]) := by
  obtain ⟨-, -, entered, -, -, -⟩ := generation_discipline [.resolve streamSample (.ofLow 0xA)]
  obtain ⟨-, -, -, -, -, again⟩ := generation_discipline []
  obtain ⟨held, done⟩ : ∃ held, empty.apply (.resolve streamSample (.ofLow 0xA)) =
      (.resolved (.ok codecSample), held) := ⟨_, rfl⟩
  refine ⟨(entered _ _ _ rfl).2, held, done, again _ _ _ _ _ done ?_⟩
  intro call member
  obtain rfl := List.mem_singleton.1 member
  rfl

end Cache
end SchemaWire
