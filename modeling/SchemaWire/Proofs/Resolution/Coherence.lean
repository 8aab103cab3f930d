import SchemaWire.Proofs.Resolution.Generations

/-!
# One codec for each type

A codec that is set in another one should be the codec that the cache gives for its type.  A stream
links its codecs by position and a cache holds them by type, the first of a type before all others.
The two agree unless a stream describes a type more than once, in different ways, and refers to a
later one of these descriptions.  Then the codec over it enters the cache with an element that the
cache does not give for the element's type, and so it stays until the generation is left.
-/

namespace SchemaWire
namespace Cache

open Descriptor Resolution

variable {cache : Cache} {stream : List UInt8} {generation type : Uuid} {codec element : Codec}
  {resolved : List (Descriptor × Slot)} {root : Uuid × Codec}

/-- Every codec that a codec of the cache holds is the one that the cache gives for its type. -/
def Coherent (cache : Cache) : Prop :=
  ∀ generation type codec, cache.lookup generation type = some codec →
    ∀ element ∈ codec.elements, cache.lookup generation element.typeId = some element

/-- A stream resolves with a cache, and brings a codec for a type that had none, of which an element
is not the first codec that the stream has for the element's type. -/
def Strays (cache : Cache) (stream : List UInt8) : Prop :=
  ∃ resolved root type codec, cache.describe stream = .ok (resolved, root) ∧
    cache.find? type = none ∧ (built resolved).lookup type = some codec ∧
    ∃ element ∈ codec.elements, (built resolved).lookup element.typeId ≠ some element

/-- The elements of what a stream brings are of types with a codec from then on: the first one that
the stream has for them. -/
theorem find?_of_mem_elements (valid : cache.Valid)
    (described : cache.describe stream = .ok (resolved, root)) (absent : cache.find? type = none)
    (brought : (built resolved).lookup type = some codec) (inside : element ∈ codec.elements) :
    ∃ first, (built resolved).lookup element.typeId = some first ∧
      (cache.insertAll (built resolved)).find? element.typeId = some first := by
  have sound : Sound cache.find? (built resolved) := sound_of_describe valid described
  have member := sound.linked type codec (mem_of_lookup brought) absent element inside
  rw [find?_insertAll]
  cases there : cache.find? element.typeId with
  | some held => exact ⟨held, sound.lookup_of_known member there, rfl⟩
  | none =>
      obtain ⟨first, found⟩ :=
        Option.isSome_iff_exists.1 (lookup_isSome_iff_mem.2 ⟨element, member⟩)
      exact ⟨first, found, found⟩

/-- A stream that describes no type twice does not stray. -/
theorem not_strays_of_distinct {descriptors : List Descriptor} (valid : cache.Valid)
    (parsed : Descriptor.ofStream stream = .ok descriptors)
    (distinct : ((descriptors.filter (!·.isRemark)).map Descriptor.id).Nodup) :
    ¬ cache.Strays stream := by
  rintro ⟨resolved, root, type, codec, described, absent, brought, element, inside, other⟩
  have sound : Sound cache.find? (built resolved) := sound_of_describe valid described
  have member := sound.linked type codec (mem_of_lookup brought) absent element inside
  obtain ⟨_, slots, again, ran, rfl, -⟩ := describe_eq_ok_iff.1 described
  obtain rfl := Except.ok.inj (parsed.symm.trans again)
  obtain ⟨paired, linked⟩ := linked_of_stream valid.keyed ran
  have silent : ∀ entry ∈ descriptors.zip slots.toList, entry.1.isRemark = true →
      entry.2.codec? = none := by
    intro entry listed told
    obtain ⟨position, there⟩ := List.mem_iff_getElem?.1 listed
    obtain ⟨present, filled⟩ := getElem?_entries.1 there
    exact (linked position entry.1 entry.2 present filled).silent told
  have keys := nodup_keys_built paired silent distinct
  exact other ((lookup_eq_some_iff_mem keys).2 member)

/-- A cache that was empty before some calls gives, for the type of every element of its codecs,
just this element, if and only if no stream strayed that has resolved since the generation was
entered; and a stream that describes no type twice never strays. -/
theorem coherent_iff_no_stray (calls : List Call) :
    ((empty.after calls).Coherent ↔
      ∀ before stream generation later, calls = before ++ .resolve stream generation :: later →
        ((empty.after before).apply (.resolve stream generation)).2.Stays later →
          ¬ ((empty.after before).enter generation).Strays stream) ∧
    ∀ stream generation descriptors, Descriptor.ofStream stream = .ok descriptors →
      ((descriptors.filter (!·.isRemark)).map Descriptor.id).Nodup →
        ¬ ((empty.after calls).enter generation).Strays stream := by
  have valid (calls : List Call) (generation : Uuid) :
      ((empty.after calls).enter generation).Valid :=
    (valid_after (valid_blank none) calls).enter generation
  refine ⟨⟨?_, ?_⟩, ?_⟩
  · rintro coherent before stream generation later rfl stays
      ⟨resolved, root, type, codec, described, absent, brought, element, inside, other⟩
    have done := apply_resolve_eq_ok.2
      (resolve_eq_ok_iff.2 ⟨resolved, root.1, root.2, described, rfl, rfl⟩)
    rw [after_of_apply done later] at coherent
    rw [done] at stays
    let filled := ((empty.after before).enter generation).insertAll (built resolved)
    have current : (filled.after later).generation = some generation := by
      rw [generation_after stays, generation_insertAll, generation_enter]
    have kept : filled.find? type = some codec := by
      rw [find?_insertAll, absent, brought, Option.none_or]
    have given := coherent generation type codec
      (lookup_eq_some_iff.2 ⟨current, find?_after stays kept⟩) element inside
    obtain ⟨first, listed, held⟩ :=
      find?_of_mem_elements (valid before generation) described absent brought inside
    refine other ?_
    calc (built resolved).lookup element.typeId
      _ = some first := listed
      _ = (filled.after later).find? element.typeId := (find?_after stays held).symm
      _ = some element := (lookup_eq_some_iff.1 given).2
  · intro straight generation type codec found element inside
    obtain ⟨before, stream, root, after, later, rfl, done, absent, brought, stays⟩ :=
      entered_of_lookup found
    have stays' : ((empty.after before).apply (.resolve stream generation)).2.Stays later := by
      rwa [done]
    have straight := straight before stream generation later rfl stays'
    obtain ⟨resolved, rootType, own, described, rfl, -⟩ :=
      resolve_eq_ok_iff.1 (apply_resolve_eq_ok.1 done)
    have fresh := find?_enter_of_lookup absent
    obtain ⟨current, brought⟩ := lookup_eq_some_iff.1 brought
    rw [find?_insertAll, fresh, Option.none_or] at brought
    obtain ⟨first, listed, held⟩ :=
      find?_of_mem_elements (valid before generation) described fresh brought inside
    have same : (built resolved).lookup element.typeId = some element := by
      by_contra other
      exact straight ⟨resolved, (rootType, own), type, codec, described, fresh, brought, element,
        inside, other⟩
    obtain rfl := Option.some.inj (listed.symm.trans same)
    rw [after_of_apply done later, lookup_eq_some_iff, generation_after stays]
    exact ⟨current, find?_after stays held⟩
  · intro stream generation descriptors parsed distinct
    exact not_strays_of_distinct (valid calls generation) parsed distinct

/-- Two enumerations of one type, and a set of the second. -/
def strayingStream : List UInt8 :=
  [7] ++ (Uuid.ofLow 0xE0).bytes ++ [0, 1, 0, 0, 0, 1, 0x41] ++
    [7] ++ (Uuid.ofLow 0xE0).bytes ++ [0, 1, 0, 0, 0, 1, 0x42] ++
    [0] ++ (Uuid.ofLow 0x5E7).bytes ++ [0, 1]

/-- The set holds the second enumeration, and the cache gives the first one for its type. -/
theorem not_coherent_of_strayingStream :
    ¬ (empty.after [.resolve strayingStream (.ofLow 0xA)]).Coherent := by
  intro coherent
  have straight := (coherent_iff_no_stray [.resolve strayingStream (.ofLow 0xA)]).1.1 coherent
  refine straight [] strayingStream (.ofLow 0xA) [] rfl trivial ?_
  refine ⟨_, _, .ofLow 0x5E7, .set (.ofLow 0x5E7) (.enumeration (.ofLow 0xE0) ["B"]), rfl, rfl, rfl,
    .enumeration (.ofLow 0xE0) ["B"], List.mem_singleton_self _, ?_⟩
  intro first
  have given : some (Codec.enumeration (.ofLow 0xE0) ["A"]) = some _ := first
  simp at given

end Cache
end SchemaWire
