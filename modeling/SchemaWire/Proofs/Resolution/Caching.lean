import SchemaWire.Proofs.Resolution.Outcome

/-!
# Resolving with a cache

A codec that is in the cache is taken for the descriptor of its type, and what that descriptor says
is not looked at.  If the cache agrees with what a stream builds by itself, this makes no difference
to the result: a cached codec either is the one that would have been built, or stands where nothing
would have been, and then no other descriptor refers to it.
-/

namespace SchemaWire

open Descriptor Fallible

namespace Resolution

variable {known others : Uuid → Option Codec} {stream : List Descriptor}
  {slots slots' : Array Slot} {type : Uuid}

/-- The codec that a resolved descriptor gives for a type. -/
def answer (type : Uuid) (entry : Descriptor × Slot) : Option Codec :=
  if entry.1.id = type then entry.2.codec? else none

theorem lookup_built (resolved : List (Descriptor × Slot)) :
    (built resolved).lookup type = (resolved.map (answer type)).findSome? id := by
  induction resolved with
  | nil => rfl
  | cons entry resolved ih =>
      rw [List.map_cons, List.findSome?_cons, ← ih, built, List.filterMap_cons, answer]
      by_cases same : entry.1.id = type
      · cases entry.2.codec? <;> simp [same, built]
      · have other : (type == entry.1.id) = false := beq_false_of_ne (Ne.symm same)
        cases entry.2.codec? <;> simp [same, built, List.lookup_cons, other]

/-- For a type without known codec, the answers are what is denoted. -/
theorem getElem?_answers (paired : slots.size = stream.length) (filled : Filled known stream slots)
    (absent : known type = none) (position : Nat) :
    ((stream.zip slots.toList).map (answer type))[position]? =
      stream[position]?.map fun descriptor =>
        if descriptor.id = type then meaning stream position else none := by
  rw [List.getElem?_map]
  cases present : stream[position]? with
  | none =>
      have short : stream.length ≤ position := List.getElem?_eq_none_iff.1 present
      simp [paired, short]
  | some descriptor =>
      obtain ⟨slot, there⟩ := exists_slot paired present
      have entry : (stream.zip slots.toList)[position]? = some (descriptor, slot) :=
        getElem?_entries.2 ⟨present, there⟩
      rw [entry, Option.map_some, Option.map_some, answer]
      split
      case isFalse => rfl
      case isTrue same =>
        rcases filled position slot there with held | ⟨-, other, held, again, reused⟩
        · rw [held]
        · obtain rfl := Option.some.inj (present.symm.trans again)
          rw [same, absent] at reused
          simp at reused

/-- What is built for a type without known codec does not depend on those of other types. -/
theorem lookup_built_congr (paired : slots.size = stream.length)
    (paired' : slots'.size = stream.length) (filled : Filled known stream slots)
    (filled' : Filled others stream slots') (absent : known type = none)
    (absent' : others type = none) :
    (built (stream.zip slots.toList)).lookup type =
      (built (stream.zip slots'.toList)).lookup type := by
  rw [lookup_built, lookup_built]
  refine congrArg (List.findSome? id) (List.ext_getElem? fun position => ?_)
  rw [getElem?_answers paired filled absent, getElem?_answers paired' filled' absent']

/-- A stream that resolves without known codecs resolves to the same root with codecs that agree
with what it denotes. -/
theorem resolveAll_of_agrees {codec : Codec}
    (ran : resolveAll (fun _ => none) #[] stream = .ok slots)
    (found : root (stream.zip slots.toList) = .ok (type, codec)) (agrees : Agrees known stream) :
    ∃ slots', resolveAll known #[] stream = .ok slots' ∧ slots'.size = stream.length ∧
      Filled known stream slots' ∧ root (stream.zip slots'.toList) = .ok (type, codec) := by
  obtain ⟨paired, filled⟩ := filled_of_resolveAll ran
  have denoted := resolveAll_iff_denoted.1 ⟨slots, ran⟩
  obtain ⟨slots', again, size, filled'⟩ := resolveAll_of_denoted denoted agrees rfl filled_empty
  have paired' : slots'.size = stream.length := by simpa using size
  obtain ⟨position, descriptor, slot, isRoot, present, there, same, held⟩ :=
    (root_eq_ok_iff paired).1 found
  obtain ⟨slot', there'⟩ := exists_slot paired' present
  have held' : slot'.codec? = some codec := by
    rw [filled.codec?_eq_meaning there] at held
    exact (filled' position slot' there').codec?_eq held
  refine ⟨slots', again, paired', filled', ?_⟩
  rw [root_eq_ok_iff paired']
  exact ⟨position, descriptor, slot', isRoot, present, there', same, held'⟩

end Resolution

namespace Cache

open Resolution

variable {stream : List UInt8} {generation type : Uuid} {blank cache after : Cache}
  {root codec : Codec} {resolved : List (Descriptor × Slot)}

/-- Resolving a stream with a cache finds a codec for a descriptor of a type. -/
def Builds (cache : Cache) (stream : List UInt8) (type : Uuid) (codec : Codec) : Prop :=
  ∃ resolved root, cache.describe stream = .ok (resolved, root) ∧ (type, codec) ∈ built resolved

theorem builds_iff_mem_built {own : Uuid × Codec} (empty : blank.entries = [])
    (described : (blank.enter generation).describe stream = .ok (resolved, own)) :
    blank.Builds stream type codec ↔ (type, codec) ∈ built resolved := by
  have same : blank.describe stream = (blank.enter generation).describe stream := by
    rw [enter_of_blank empty, describe, describe]
    have unknown : blank.find? = find? ⟨some generation, []⟩ := by
      funext type
      rw [find?, find?, empty]
    rw [unknown]
  constructor
  · rintro ⟨_, _, again, member⟩
    rw [same, described] at again
    obtain ⟨rfl, -⟩ := Prod.mk.inj (Except.ok.inj again)
    exact member
  · intro member
    exact ⟨resolved, own, same.trans described, member⟩

/-- A cache whose codecs agree with what a stream denotes takes in what it lacks of those that are
built without it. -/
theorem exists_resolve_of_agrees {descriptors : List Descriptor} {slots : Array Slot} {own : Codec}
    (current : cache.generation = some generation)
    (parsed : Descriptor.ofStream stream = .ok descriptors)
    (ran : resolveAll (fun _ => none) #[] descriptors = .ok slots)
    (found : Resolution.root (descriptors.zip slots.toList) = .ok (type, own))
    (agrees : Agrees cache.find? descriptors) :
    ∃ filled, resolve stream generation cache = .ok ((filled.find? type).getD own) filled ∧
      filled.generation = some generation ∧
      ∀ type, filled.find? type =
        (cache.find? type).or ((built (descriptors.zip slots.toList)).lookup type) := by
  obtain ⟨paired, filled⟩ := filled_of_resolveAll ran
  obtain ⟨slots', again, paired', filled', found'⟩ := resolveAll_of_agrees ran found agrees
  have entering : cache.enter generation = cache := enter_of_current current
  refine ⟨cache.insertAll (built (descriptors.zip slots'.toList)), ?_, ?_, ?_⟩
  · rw [resolve_eq_ok_iff, entering]
    have described := describe_eq_ok_iff.2 ⟨descriptors, slots', parsed, again, rfl, found'⟩
    exact ⟨_, type, own, described, rfl, rfl⟩
  · rw [generation_insertAll, current]
  · intro type
    rw [find?_insertAll]
    cases absent : cache.find? type with
    | some held => rfl
    | none => rw [lookup_built_congr paired' paired filled' filled absent rfl]

/-- If a cache agrees with all codecs that a stream builds from a cache without entries, the stream
resolves to the same codec with it; entries stay as they are, and those that the stream builds and
that were missing enter it. -/
theorem resolve_of_agreeing (current : cache.generation = some generation)
    (empty : blank.entries = []) (alone : resolve stream generation blank = .ok root after)
    (agrees : ∀ type codec held, blank.Builds stream type codec → cache.find? type = some held →
      held = codec) :
    ∃ filled, resolve stream generation cache = .ok root filled ∧
      filled.generation = some generation ∧
      (∀ type held, cache.find? type = some held → filled.find? type = some held) ∧
      ∀ type, cache.find? type = none → filled.find? type = after.find? type ∧
        ((filled.find? type).isSome = true ↔ ∃ codec, blank.Builds stream type codec) := by
  obtain ⟨resolved, type, own, described, rfl, told⟩ := resolve_eq_ok_iff.1 alone
  simp only [builds_iff_mem_built empty described] at agrees ⊢
  rw [enter_of_blank empty] at described told ⊢
  obtain ⟨descriptors, slots, parsed, ran, rfl, found⟩ := describe_eq_ok_iff.1 described
  obtain ⟨paired, filled⟩ := filled_of_resolveAll ran
  have agree : Agrees cache.find? descriptors := by
    intro position descriptor codec held present denoted there
    refine agrees descriptor.id codec held ?_ there
    exact (mem_built_iff_meaning paired filled).2 ⟨position, descriptor, present, rfl, denoted⟩
  obtain ⟨filled, done, same, holds⟩ :=
    exists_resolve_of_agrees current parsed ran found agree
  rw [find?_insertAll_blank] at told
  have result : (filled.find? type).getD own = root := by
    rw [holds]
    -- The cache answers for the type of the root with its own codec, so that has to be the one
    -- that comes first among those built.
    cases there : cache.find? type with
    | none => exact told
    | some held =>
        have member := root_mem_built paired found
        rw [told] at member
        exact agrees type root held member there
  rw [result] at done
  refine ⟨filled, done, same, ?_, ?_⟩
  · intro type held there
    rw [holds, there, Option.some_or]
  · intro type absent
    rw [holds, absent, find?_insertAll_blank, Option.none_or]
    exact ⟨rfl, lookup_isSome_iff_mem⟩

/-- A cache with the base scalar of the sample stream, and a codec for the type of its object
shape. -/
def cacheSample : Cache :=
  ⟨some (.ofLow 0xA), [(.ofLow 0x0B, .enumeration (.ofLow 0x0B) ["a"]),
    (.ofLow 0x101, .scalar (.ofLow 0x101) .text)]⟩

theorem resolve_of_agreeing_sample :
    (∃ after, resolve streamSample (.ofLow 0xA) .empty = .ok codecSample after) ∧
      (∀ type codec held, empty.Builds streamSample type codec →
        cacheSample.find? type = some held → held = codec) ∧
      ∃ filled, resolve streamSample (.ofLow 0xA) cacheSample = .ok codecSample filled ∧
        filled.find? (.ofLow 0x0B) = some (.enumeration (.ofLow 0x0B) ["a"]) := by
  obtain ⟨after, alone⟩ :
      ∃ after, resolve streamSample (.ofLow 0xA) .empty = .ok codecSample after := ⟨_, rfl⟩
  have agrees : ∀ type codec held, empty.Builds streamSample type codec →
      cacheSample.find? type = some held → held = codec := by
    rintro type codec held ⟨_, _, described, member⟩ there
    obtain ⟨rfl, -⟩ := Prod.mk.inj (Except.ok.inj described)
    have member : (type, codec) ∈ [(.ofLow 0x101, .scalar (.ofLow 0x101) .text),
        (.ofLow 0x5E7, codecSample)] := member
    simp only [List.mem_cons, Prod.mk.injEq, List.not_mem_nil, or_false] at member
    rcases member with ⟨rfl, rfl⟩ | ⟨rfl, rfl⟩
    · exact (Option.some.inj there).symm
    · cases there
  obtain ⟨filled, done, -, kept, -⟩ := resolve_of_agreeing rfl rfl alone agrees
  exact ⟨⟨after, alone⟩, agrees, filled, done, kept _ _ rfl⟩

end Cache
end SchemaWire
