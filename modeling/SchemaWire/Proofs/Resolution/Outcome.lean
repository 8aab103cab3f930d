import Mathlib.Data.List.Nodup
import SchemaWire.Proofs.Resolution.Meaning

/-!
# The outcome of resolving a stream

Once all slots are filled, the last descriptor that is no remark gives the result, and all codecs
that are not yet in the cache enter it.  From a cache without entries, both are what the descriptors
denote.
-/

namespace SchemaWire

open Descriptor Fallible

namespace Resolution

variable {known : Uuid → Option Codec} {stream : List Descriptor} {slots : Array Slot} {slot : Slot}
  {codec : Codec} {type : Uuid} {resolved : List (Descriptor × Slot)}

theorem exists_slot {position : Nat} {descriptor : Descriptor} (paired : slots.size = stream.length)
    (present : stream[position]? = some descriptor) : ∃ slot, slots[position]? = some slot := by
  obtain ⟨within, -⟩ := List.getElem?_eq_some_iff.1 present
  rw [← paired] at within
  exact ⟨_, Array.getElem?_eq_getElem within⟩

theorem getElem?_entries {position : Nat} {entry : Descriptor × Slot} :
    (stream.zip slots.toList)[position]? = some entry ↔
      stream[position]? = some entry.1 ∧ slots[position]? = some entry.2 := by
  simp [List.getElem?_zip_eq_some]

theorem map_fst_entries (paired : slots.size = stream.length) :
    (stream.zip slots.toList).map Prod.fst = stream :=
  List.map_fst_zip (by simp [paired])

/-! ## The root -/

theorem find?_reverse_eq_some_iff {entry : Descriptor × Slot} :
    (resolved.reverse.find? fun entry => !entry.1.isRemark) = some entry ↔
      ∃ position, IsRoot (resolved.map Prod.fst) position ∧ resolved[position]? = some entry := by
  rw [List.find?_eq_some_iff_append]
  constructor
  · rintro ⟨told, back, front, split, remarks⟩
    rw [List.reverse_eq_iff] at split
    subst split
    refine ⟨front.length, ⟨front.reverse.map Prod.fst, entry.1, back.reverse.map Prod.fst, ?_⟩, ?_⟩
    · exact ⟨by simp, by simp, by simpa using told, by simpa using remarks⟩
    · simp
  · rintro ⟨position, ⟨front, descriptor, remarks, split, rfl, told, marked⟩, present⟩
    obtain ⟨before, rest, rfl, rfl, last⟩ := List.map_eq_append_iff.1 split
    obtain ⟨root, after, rfl, rfl, rfl⟩ := List.map_eq_cons_iff.1 last
    obtain rfl : root = entry := by simpa using present
    refine ⟨by simpa using told, after.reverse, before.reverse, by simp, ?_⟩
    simpa using marked

theorem root_eq_ok_iff (paired : slots.size = stream.length) :
    root (stream.zip slots.toList) = .ok (type, codec) ↔
      ∃ position descriptor slot, IsRoot stream position ∧ stream[position]? = some descriptor ∧
        slots[position]? = some slot ∧ descriptor.id = type ∧ slot.codec? = some codec := by
  have isFound : ∀ entry,
      ((stream.zip slots.toList).reverse.find? fun entry => !entry.1.isRemark) = some entry ↔
        ∃ position, IsRoot stream position ∧ stream[position]? = some entry.1 ∧
          slots[position]? = some entry.2 := by
    intro entry
    simp only [find?_reverse_eq_some_iff, map_fst_entries paired, getElem?_entries]
  rw [root]
  cases found : (stream.zip slots.toList).reverse.find? fun entry => !entry.1.isRemark with
  | none =>
      simp only [reduceCtorEq, false_iff]
      rintro ⟨position, descriptor, slot, isRoot, present, filled, -⟩
      simp [(isFound (descriptor, slot)).2 ⟨position, isRoot, present, filled⟩] at found
  | some entry =>
      obtain ⟨position, isRoot, present, filled⟩ := (isFound entry).1 found
      simp only [bind_eq_ok_iff, codecFor_eq_ok_iff]
      constructor
      · rintro ⟨own, held, told⟩
        obtain ⟨rfl, rfl⟩ := Prod.mk.inj (Except.ok.inj told)
        exact ⟨position, entry.1, entry.2, isRoot, present, filled, rfl, held⟩
      · rintro ⟨other, descriptor, slot, isOther, presentToo, filledToo, rfl, held⟩
        have again := (isFound (descriptor, slot)).2 ⟨other, isOther, presentToo, filledToo⟩
        obtain rfl := Option.some.inj (found.symm.trans again)
        exact ⟨codec, held, rfl⟩

/-! ## What is built -/

variable {entries : List (Uuid × Codec)}

theorem mem_of_lookup (found : entries.lookup type = some codec) : (type, codec) ∈ entries := by
  obtain ⟨before, after, rfl, -⟩ := List.lookup_eq_some_iff.1 found
  exact List.mem_append_right before List.mem_cons_self

theorem lookup_isSome_iff_mem :
    (entries.lookup type).isSome = true ↔ ∃ codec, (type, codec) ∈ entries := by
  simp [List.lookup_isSome_iff]

theorem lookup_eq_some_iff_mem (distinct : (entries.map Prod.fst).Nodup) :
    entries.lookup type = some codec ↔ (type, codec) ∈ entries := by
  constructor
  · exact mem_of_lookup
  · intro member
    obtain ⟨first, found⟩ := Option.isSome_iff_exists.1 (lookup_isSome_iff_mem.2 ⟨codec, member⟩)
    have same := List.inj_on_of_nodup_map distinct (mem_of_lookup found) member rfl
    rw [found, (Prod.mk.inj same).2]

theorem mem_built_iff :
    (type, codec) ∈ built (stream.zip slots.toList) ↔
      ∃ (position : Nat) (descriptor : Descriptor) (slot : Slot),
        stream[position]? = some descriptor ∧ slots[position]? = some slot ∧
          descriptor.id = type ∧ slot.codec? = some codec := by
  rw [built, List.mem_filterMap]
  simp only [Option.map_eq_some_iff, Prod.mk.injEq, List.mem_iff_getElem?, getElem?_entries]
  constructor
  · rintro ⟨⟨descriptor, slot⟩, ⟨position, present, there⟩, _, held, same, rfl⟩
    exact ⟨position, descriptor, slot, present, there, same, held⟩
  · rintro ⟨position, descriptor, slot, present, there, same, held⟩
    exact ⟨(descriptor, slot), ⟨position, present, there⟩, codec, held, same, rfl⟩

/-- The first codec that is built for the type of the root. -/
theorem root_mem_built (paired : slots.size = stream.length)
    (found : root (stream.zip slots.toList) = .ok (type, codec)) :
    (type, ((built (stream.zip slots.toList)).lookup type).getD codec) ∈
      built (stream.zip slots.toList) := by
  cases first : (built (stream.zip slots.toList)).lookup type with
  | some _ => exact mem_of_lookup first
  | none =>
      obtain ⟨position, descriptor, slot, -, entry⟩ := (root_eq_ok_iff paired).1 found
      exact mem_built_iff.2 ⟨position, descriptor, slot, entry⟩

/-- From no known codecs, what is built is what is denoted. -/
theorem mem_built_iff_meaning (paired : slots.size = stream.length)
    (filled : Filled (fun _ => none) stream slots) :
    (type, codec) ∈ built (stream.zip slots.toList) ↔
      ∃ position descriptor, stream[position]? = some descriptor ∧ descriptor.id = type ∧
        meaning stream position = some codec := by
  rw [mem_built_iff]
  constructor
  · rintro ⟨position, descriptor, slot, present, there, same, held⟩
    rw [filled.codec?_eq_meaning there] at held
    exact ⟨position, descriptor, present, same, held⟩
  · rintro ⟨position, descriptor, present, same, denoted⟩
    obtain ⟨slot, there⟩ := exists_slot paired present
    rw [← filled.codec?_eq_meaning there] at denoted
    exact ⟨position, descriptor, slot, present, there, same, denoted⟩

/-- Built codecs are of types that the descriptors describe, in their order. -/
theorem keys_built_sublist
    (silent : ∀ entry ∈ resolved, entry.1.isRemark = true → entry.2.codec? = none) :
    ((built resolved).map Prod.fst).Sublist
      (((resolved.map Prod.fst).filter (!·.isRemark)).map Descriptor.id) := by
  induction resolved with
  | nil => exact .slnil
  | cons entry resolved ih =>
      obtain ⟨first, others⟩ := List.forall_mem_cons.1 silent
      have rest := ih others
      rw [built, List.filterMap_cons, List.map_cons]
      cases told : entry.1.isRemark with
      | true =>
          rw [first told, Option.map_none, List.filter_cons_of_neg (by simp [told])]
          exact rest
      | false =>
          rw [List.filter_cons_of_pos (by simp [told]), List.map_cons]
          cases entry.2.codec? with
          | none => exact rest.cons entry.1.id
          | some codec => exact rest.cons_cons entry.1.id

/-- A stream that describes no type twice builds no two codecs for a type. -/
theorem nodup_keys_built (paired : slots.size = stream.length)
    (silent : ∀ entry ∈ stream.zip slots.toList, entry.1.isRemark = true → entry.2.codec? = none)
    (distinct : ((stream.filter (!·.isRemark)).map Descriptor.id).Nodup) :
    ((built (stream.zip slots.toList)).map Prod.fst).Nodup := by
  have ordered := keys_built_sublist silent
  rw [map_fst_entries paired] at ordered
  exact distinct.sublist ordered

end Resolution

/-! ## The cache -/

namespace Cache

open Resolution

variable {stream : List UInt8} {descriptors : List Descriptor} {generation : Uuid}
  {cache after : Cache} {codec : Codec}

theorem describe_eq_ok_iff {resolved : List (Descriptor × Slot)} {type : Uuid} :
    cache.describe stream = .ok (resolved, type, codec) ↔
      ∃ descriptors slots, Descriptor.ofStream stream = .ok descriptors ∧
        resolveAll cache.find? #[] descriptors = .ok slots ∧
        descriptors.zip slots.toList = resolved ∧ root resolved = .ok (type, codec) := by
  rw [describe]
  simp only [bind_eq_ok_iff]
  constructor
  · rintro ⟨descriptors, parsed, slots, ran, ⟨_, _⟩, found, told⟩
    obtain ⟨rfl, rfl, rfl⟩ : _ ∧ _ ∧ _ := by simpa [pure, Except.pure] using told
    exact ⟨descriptors, slots, parsed, ran, rfl, found⟩
  · rintro ⟨descriptors, slots, parsed, ran, rfl, found⟩
    exact ⟨descriptors, parsed, slots, ran, (type, codec), found, rfl⟩

theorem resolve_eq_ok_iff :
    resolve stream generation cache = .ok codec after ↔
      ∃ resolved type own, (cache.enter generation).describe stream = .ok (resolved, type, own) ∧
        (cache.enter generation).insertAll (built resolved) = after ∧
        (after.find? type).getD own = codec := by
  rw [resolve]
  cases (cache.enter generation).describe stream with
  | error fault => simp
  | ok description =>
      obtain ⟨resolved, type, own⟩ := description
      simp only [EStateM.Result.ok.injEq, Except.ok.injEq, Prod.mk.injEq]
      constructor
      · rintro ⟨told, kept⟩
        rw [kept] at told
        exact ⟨resolved, type, own, ⟨rfl, rfl, rfl⟩, kept, told⟩
      · rintro ⟨_, _, _, ⟨rfl, rfl, rfl⟩, kept, told⟩
        rw [kept]
        exact ⟨told, rfl⟩

theorem enter_of_blank (blank : cache.entries = []) :
    cache.enter generation = ⟨some generation, []⟩ := by
  by_cases current : cache.generation = some generation
  · rw [enter_of_current current, ← current, ← blank]
  · exact enter_of_other current

theorem find?_insertAll_blank (generation : Option Uuid) (codecs : List (Uuid × Codec))
    (type : Uuid) : (insertAll ⟨generation, []⟩ codecs).find? type = codecs.lookup type := by
  rw [find?_insertAll]
  rfl

/-- A cache without entries that takes in what is built holds what is denoted. -/
theorem find?_of_blank {slots : Array Slot} {type : Uuid} {found : Codec} (generation : Uuid)
    (distinct : ((descriptors.filter (!·.isRemark)).map Descriptor.id).Nodup)
    (paired : slots.size = descriptors.length) (filled : Filled (fun _ => none) descriptors slots) :
    (insertAll ⟨some generation, []⟩ (built (descriptors.zip slots.toList))).find? type =
        some found ↔
      ∃ position descriptor, descriptors[position]? = some descriptor ∧ descriptor.id = type ∧
        meaning descriptors position = some found := by
  have silent : ∀ entry ∈ descriptors.zip slots.toList, entry.1.isRemark = true →
      entry.2.codec? = none := by
    intro entry member told
    obtain ⟨position, there⟩ := List.mem_iff_getElem?.1 member
    obtain ⟨present, there⟩ := getElem?_entries.1 there
    rw [filled.codec?_eq_meaning there]
    exact meaning_of_remark present told
  have keys := nodup_keys_built paired silent distinct
  rw [find?_insertAll_blank, lookup_eq_some_iff_mem keys, mem_built_iff_meaning paired filled]

/-- What a cache without entries resolves a stream to. -/
theorem resolve_of_blank (parsed : Descriptor.ofStream stream = .ok descriptors)
    (distinct : ((descriptors.filter (!·.isRemark)).map Descriptor.id).Nodup)
    (blank : cache.entries = []) :
    resolve stream generation cache = .ok codec after ↔
      ∃ slots, resolveAll (fun _ => none) #[] descriptors = .ok slots ∧
        insertAll ⟨some generation, []⟩ (built (descriptors.zip slots.toList)) = after ∧
        ∃ position, IsRoot descriptors position ∧
          meaning descriptors position = some codec := by
  rw [resolve_eq_ok_iff, enter_of_blank blank]
  constructor
  · rintro ⟨_, type, own, described, rfl, told⟩
    obtain ⟨_, slots, again, ran, rfl, found⟩ := describe_eq_ok_iff.1 described
    obtain rfl := Except.ok.inj (parsed.symm.trans again)
    obtain ⟨paired, filled⟩ := filled_of_resolveAll ran
    obtain ⟨position, descriptor, slot, isRoot, present, there, same, held⟩ :=
      (root_eq_ok_iff paired).1 found
    rw [filled.codec?_eq_meaning there] at held
    have entered := (find?_of_blank generation distinct paired filled).2
      ⟨position, descriptor, present, same, held⟩
    rw [entered, Option.getD_some] at told
    rw [told] at held
    exact ⟨slots, ran, rfl, position, isRoot, held⟩
  · rintro ⟨slots, ran, rfl, position, isRoot, denoted⟩
    obtain ⟨paired, filled⟩ := filled_of_resolveAll ran
    obtain ⟨descriptor, present, -⟩ := exists_of_meaning denoted
    obtain ⟨slot, there⟩ := exists_slot paired present
    have held : slot.codec? = some codec := by
      rw [filled.codec?_eq_meaning there, denoted]
    have found := (root_eq_ok_iff paired).2
      ⟨position, descriptor, slot, isRoot, present, there, rfl, held⟩
    have entered := (find?_of_blank generation distinct paired filled).2
      ⟨position, descriptor, present, rfl, denoted⟩
    refine ⟨_, _, _, describe_eq_ok_iff.2 ⟨descriptors, slots, parsed, ran, rfl, found⟩, rfl, ?_⟩
    rw [entered, Option.getD_some]

/-- Resolving a stream that describes no type twice, from a cache without entries, succeeds if
every descriptor of a kind that has codecs denotes one and so does the last that is no remark.
What that denotes is the result, and the cache then holds what is denoted for each type. -/
theorem resolve_iff_denotes (parsed : Descriptor.ofStream stream = .ok descriptors)
    (distinct : ((descriptors.filter (!·.isRemark)).map Descriptor.id).Nodup)
    (blank : cache.entries = []) :
    (∀ codec, (∃ after, resolve stream generation cache = .ok codec after) ↔
      Denoted descriptors ∧
        ∃ position, IsRoot descriptors position ∧ meaning descriptors position = some codec) ∧
    ∀ codec after, resolve stream generation cache = .ok codec after →
      ∀ type found, after.lookup generation type = some found ↔
        ∃ position descriptor, descriptors[position]? = some descriptor ∧ descriptor.id = type ∧
          meaning descriptors position = some found := by
  constructor
  · intro codec
    simp only [resolve_of_blank parsed distinct blank, ← resolveAll_iff_denoted]
    constructor
    · rintro ⟨_, slots, ran, rfl, root⟩
      exact ⟨⟨slots, ran⟩, root⟩
    · rintro ⟨⟨slots, ran⟩, root⟩
      exact ⟨_, slots, ran, rfl, root⟩
  · intro codec after done type found
    obtain ⟨slots, ran, rfl, -⟩ := (resolve_of_blank parsed distinct blank).1 done
    obtain ⟨paired, filled⟩ := filled_of_resolveAll ran
    rw [lookup, generation_insertAll, if_pos rfl]
    exact find?_of_blank generation distinct paired filled

/-- A base scalar, a remark on it, an object shape and a set of the first. -/
def descriptorsSample : List Descriptor :=
  [.baseScalar (.ofLow 0x101), .remark 0xFF (.ofLow 0x101) "x", .objectShape (.ofLow 0x0B) [],
    .set (.ofLow 0x5E7) 0]

/-- The stream of the descriptors above. -/
def streamSample : List UInt8 :=
  [2] ++ (Uuid.ofLow 0x101).bytes ++ [0xFF] ++ (Uuid.ofLow 0x101).bytes ++ [0, 0, 0, 1, 0x78] ++
    [1] ++ (Uuid.ofLow 0x0B).bytes ++ [0, 0] ++ [0] ++ (Uuid.ofLow 0x5E7).bytes ++ [0, 0]

/-- The codec that the last of them denotes. -/
def codecSample : Codec := .set (.ofLow 0x5E7) (.scalar (.ofLow 0x101) .text)

theorem resolve_iff_denotes_sample :
    Descriptor.ofStream streamSample = .ok descriptorsSample ∧
      ((descriptorsSample.filter (!·.isRemark)).map Descriptor.id).Nodup ∧
      Denoted descriptorsSample ∧
      ∃ after, resolve streamSample (.ofLow 0xA) .empty = .ok codecSample after ∧
        after.lookup (.ofLow 0xA) (.ofLow 0x5E7) = some codecSample := by
  have parsed : Descriptor.ofStream streamSample = .ok descriptorsSample := rfl
  have distinct : ((descriptorsSample.filter (!·.isRemark)).map Descriptor.id).Nodup := by decide
  have done : ∃ after, resolve streamSample (.ofLow 0xA) .empty = .ok codecSample after := ⟨_, rfl⟩
  have denoted : meaning descriptorsSample 3 = some codecSample := by
    have text : meaning descriptorsSample 0 = some (.scalar (.ofLow 0x101) .text) := by
      rw [@meaning_eq_codecFrom descriptorsSample _ 0 rfl]
      rfl
    rw [@meaning_eq_codecFrom descriptorsSample _ 3 rfl]
    exact Option.map_eq_some_iff.2 ⟨_, text, rfl⟩
  obtain ⟨outcome, entered⟩ := @resolve_iff_denotes _ _ (.ofLow 0xA) .empty parsed distinct rfl
  refine ⟨parsed, distinct, ((outcome codecSample).1 done).1, ?_⟩
  obtain ⟨after, done⟩ := done
  exact ⟨after, done, (entered _ _ done _ _).2 ⟨3, _, rfl, rfl, denoted⟩⟩

end Cache
end SchemaWire
