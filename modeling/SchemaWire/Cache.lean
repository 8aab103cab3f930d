import SchemaWire.Resolution

/-!
# Codec cache

Codecs that have been resolved, by type.  A cache belongs to one generation of the schema; the
identifiers of one generation mean nothing in the next, so a change of generation empties it.
-/

namespace SchemaWire

/-- Resolved codecs of one generation of a schema. -/
structure Cache where
  /-- The generation, once there has been one. -/
  generation : Option Uuid
  /-- The codecs by type, each type once. -/
  entries : List (Uuid × Codec)
  deriving Repr

/-- A computation that uses a cache. -/
abbrev Caches (α : Type) := EStateM Fault Cache α

namespace Cache

/-- A cache that has seen no generation. -/
def empty : Cache := ⟨none, []⟩

/-- The codec of a type, whatever the generation. -/
def find? (cache : Cache) (type : Uuid) : Option Codec :=
  cache.entries.lookup type

/-- The codec of a type in a generation. -/
def lookup (cache : Cache) (generation type : Uuid) : Option Codec :=
  if cache.generation = some generation then cache.find? type else none

/-- Whether a generation is another than that of a cache, and the cache of that generation: this
one, or an empty one. -/
def switch (cache : Cache) (generation : Uuid) : Bool × Cache :=
  if cache.generation = some generation then (false, cache) else (true, ⟨some generation, []⟩)

/-- The cache of a generation. -/
def enter (cache : Cache) (generation : Uuid) : Cache :=
  (cache.switch generation).2

theorem enter_of_current {cache : Cache} {generation : Uuid}
    (current : cache.generation = some generation) : cache.enter generation = cache := by
  rw [enter, switch, if_pos current]

theorem enter_of_other {cache : Cache} {generation : Uuid}
    (other : cache.generation ≠ some generation) :
    cache.enter generation = ⟨some generation, []⟩ := by
  rw [enter, switch, if_neg other]

/-- What a switch tells is whether the generation changes. -/
theorem fst_switch (cache : Cache) (generation : Uuid) :
    (cache.switch generation).1 = true ↔ cache.generation ≠ some generation := by
  rw [switch]
  split
  case isTrue current => simp [current]
  case isFalse other => simp [other]

/-- Add a codec unless there is one of its type. -/
def insert (cache : Cache) (type : Uuid) (codec : Codec) : Cache :=
  match cache.find? type with
  | some _ => cache
  | none => { cache with entries := (type, codec) :: cache.entries }

@[simp]
theorem generation_insert (cache : Cache) (type : Uuid) (codec : Codec) :
    (cache.insert type codec).generation = cache.generation := by
  rw [insert]
  split <;> rfl

/-- A codec that is added does not take the place of another. -/
theorem find?_insert (cache : Cache) (type other : Uuid) (codec : Codec) :
    (cache.insert type codec).find? other =
      if other = type then some ((cache.find? type).getD codec) else cache.find? other := by
  rw [insert]
  split
  case h_1 present found =>
    split
    case isTrue same => rw [same, found, Option.getD_some]
    case isFalse => rfl
  case h_2 absent =>
    rw [absent, Option.getD_none, find?, List.lookup_cons]
    by_cases same : other = type
    · simp [same]
    · simp [same, beq_false_of_ne same, find?]

/-- Add codecs one after the other, each unless there is one of its type. -/
def insertAll (cache : Cache) (codecs : List (Uuid × Codec)) : Cache :=
  codecs.foldl (fun cache entry => cache.insert entry.1 entry.2) cache

@[simp]
theorem generation_insertAll (cache : Cache) (codecs : List (Uuid × Codec)) :
    (cache.insertAll codecs).generation = cache.generation := by
  induction codecs generalizing cache with
  | nil => rfl
  | cons entry codecs ih =>
      rw [insertAll, List.foldl_cons]
      exact (ih _).trans (generation_insert cache entry.1 entry.2)

/-- Among codecs that are added, the first of a type counts, and none if there was one before. -/
theorem find?_insertAll (cache : Cache) (codecs : List (Uuid × Codec)) (type : Uuid) :
    (cache.insertAll codecs).find? type = (cache.find? type).or (codecs.lookup type) := by
  induction codecs generalizing cache with
  | nil => exact (Option.or_none).symm
  | cons entry codecs ih =>
      rw [insertAll, List.foldl_cons]
      refine (ih _).trans ?_
      rw [find?_insert, List.lookup_cons]
      by_cases same : type = entry.1
      · subst same
        cases held : cache.find? entry.1 <;> simp
      · simp [same, beq_false_of_ne same]

/-- The descriptors of a stream, each with what it stands for in a cache, and the root among
them. -/
def describe (cache : Cache) (stream : List UInt8) :
    Except Fault (List (Descriptor × Slot) × Uuid × Codec) := do
  let descriptors ← Descriptor.ofStream stream
  let slots ← Resolution.resolveAll cache.find? #[] descriptors
  let resolved := descriptors.zip slots.toList
  let (type, codec) ← Resolution.root resolved
  pure (resolved, type, codec)

/-- The codec of the type that a stream describes last.  All codecs of the stream that are not yet
there enter the cache, if the whole stream resolves. -/
def resolve (stream : List UInt8) (generation : Uuid) : Caches Codec := fun cache =>
  let cache := cache.enter generation
  match cache.describe stream with
  | .error fault => .error fault cache
  | .ok (resolved, type, codec) =>
      let cache := cache.insertAll (Resolution.built resolved)
      .ok ((cache.find? type).getD codec) cache

end Cache
end SchemaWire
