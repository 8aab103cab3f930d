import SchemaWire.Flag
import Mathlib.Data.List.Basic
import Mathlib.Data.Nat.Bitwise

/-!
# Sets of flags as numbers

A number covers a mask if it has every bit of it.  In a table in which no flag stands twice, joining
the masks of flags and listing the flags that a number covers belong together: a number covers the
joined masks exactly if it holds those of the flags that the table has.  All else follows from this,
whether masks overlap, have many bits, or none.
-/

namespace SchemaWire
namespace FlagTable

variable {bits more first second : UInt64}

/-- Every bit that is set in a mask is set in a number. -/
def Covers (bits mask : UInt64) : Prop :=
  ∀ position, mask.toNat.testBit position = true → bits.toNat.testBit position = true

/-! ## Covering -/

theorem covers_refl (bits : UInt64) : Covers bits bits := by
  intro position set
  exact set

theorem covers_zero (bits : UInt64) : Covers bits 0 := by
  intro position set
  simp at set

theorem Covers.trans (upper : Covers more bits) (lower : Covers bits first) :
    Covers more first := by
  intro position set
  exact upper position (lower position set)

/-- Numbers that cover each other have the same bits. -/
theorem Covers.antisymm (upper : Covers more bits) (lower : Covers bits more) : bits = more := by
  apply UInt64.toNat_inj.1
  apply Nat.eq_of_testBit_eq
  intro position
  exact Bool.eq_iff_iff.2 ⟨upper position, lower position⟩

theorem covers_iff_and_eq : Covers more bits ↔ more &&& bits = bits := by
  constructor
  · intro covered
    apply UInt64.toNat_inj.1
    apply Nat.eq_of_testBit_eq
    intro position
    rw [UInt64.toNat_and, Nat.testBit_and, Bool.and_eq_right_iff_imp]
    exact covered position
  · intro same position set
    rw [← same, UInt64.toNat_and, Nat.testBit_and, Bool.and_eq_true] at set
    exact set.1

theorem covers_or_iff :
    Covers bits (first ||| second) ↔ Covers bits first ∧ Covers bits second := by
  simp only [Covers, UInt64.toNat_or, Nat.testBit_or, Bool.or_eq_true, or_imp, forall_and]

/-! ## Flags that a number covers -/

variable {α : Type} {table : FlagTable α} {flag : α} {flags others : List α}

theorem mem_ofBits_iff_covers :
    flag ∈ table.ofBits bits ↔ ∃ mask, (mask, flag) ∈ table ∧ Covers bits mask := by
  simp only [mem_ofBits, covers_iff_and_eq]

theorem ofBits_sublist (table : FlagTable α) (bits : UInt64) :
    List.Sublist (table.ofBits bits) (table.map Prod.snd) :=
  List.filter_sublist.map Prod.snd

theorem ofBits_mono (table : FlagTable α) (upper : Covers more bits) :
    List.Sublist (table.ofBits bits) (table.ofBits more) := by
  apply List.Sublist.map Prod.snd
  apply List.monotone_filter_right table
  intro entry held
  simp only [decide_eq_true_eq, ← covers_iff_and_eq] at held ⊢
  exact upper.trans held

/-- What a number holds is known from the masks of the table that it covers. -/
theorem ofBits_congr (same : ∀ entry ∈ table, Covers bits entry.1 ↔ Covers more entry.1) :
    table.ofBits bits = table.ofBits more := by
  apply congrArg (List.map Prod.snd)
  apply List.filter_congr
  intro entry listed
  rw [decide_eq_decide, ← covers_iff_and_eq, ← covers_iff_and_eq]
  exact same entry listed

/-! ## Joined masks -/

variable [DecidableEq α]

theorem mask_of_unlisted (unlisted : flag ∉ table.map Prod.snd) : table.mask flag = 0 := by
  have missing : table.find? (fun entry => entry.2 = flag) = none := by
    rw [List.find?_eq_none]
    intro entry listed same
    obtain rfl := of_decide_eq_true same
    exact unlisted (List.mem_map_of_mem listed)
  rw [mask, missing]

/-- A flag that stands in the table once has the mask that it stands with. -/
theorem mask_of_mem (distinct : (table.map Prod.snd).Nodup) {entry : UInt64 × α}
    (listed : entry ∈ table) : table.mask entry.2 = entry.1 := by
  have found : table.find? (fun other => other.2 = entry.2) = some entry := by
    induction table with
    | nil => simp at listed
    | cons head table ih =>
        rw [List.map_cons, List.nodup_cons] at distinct
        rcases List.mem_cons.1 listed with rfl | later
        · simp
        · have other : head.2 ≠ entry.2 := by
            intro same
            rw [same] at distinct
            exact distinct.1 (List.mem_map_of_mem later)
          rw [List.find?_cons_of_neg (by simpa using other)]
          exact ih distinct.2 later
  rw [mask, found]

/-- A number holds a flag of the table if it covers its mask. -/
theorem mem_ofBits_iff_mask (distinct : (table.map Prod.snd).Nodup) {entry : UInt64 × α}
    (listed : entry ∈ table) : entry.2 ∈ table.ofBits bits ↔ Covers bits entry.1 := by
  rw [mem_ofBits_iff_covers]
  constructor
  · rintro ⟨mask, member, covered⟩
    rwa [← mask_of_mem distinct listed, mask_of_mem distinct member]
  · intro covered
    exact ⟨entry.1, listed, covered⟩

/-- The joined masks of flags are the least number that covers each of them. -/
theorem covers_toBits_iff :
    Covers bits (table.toBits flags) ↔ ∀ flag ∈ flags, Covers bits (table.mask flag) := by
  have joined (start : UInt64) :
      Covers bits (flags.foldl (fun bits flag => bits ||| table.mask flag) start) ↔
        Covers bits start ∧ ∀ flag ∈ flags, Covers bits (table.mask flag) := by
    induction flags generalizing start with
    | nil => simp
    | cons flag flags ih =>
        rw [List.foldl_cons, ih, covers_or_iff, List.forall_mem_cons, and_assoc]
  rw [toBits, joined]
  exact and_iff_right (covers_zero bits)

/-- A number covers the joined masks of flags if it holds those that the table has: the others have
no bits. -/
theorem covers_toBits_iff_held (distinct : (table.map Prod.snd).Nodup) :
    Covers bits (table.toBits flags) ↔
      ∀ flag ∈ flags, flag ∈ table.map Prod.snd → flag ∈ table.ofBits bits := by
  rw [covers_toBits_iff]
  refine forall₂_congr fun flag _ => ?_
  by_cases listed : flag ∈ table.map Prod.snd
  case pos =>
    obtain ⟨entry, member, rfl⟩ := List.mem_map.1 listed
    rw [mask_of_mem distinct member, mem_ofBits_iff_mask distinct member]
    constructor
    · intro covered _
      exact covered
    · intro covered
      exact covered listed
  case neg =>
    rw [mask_of_unlisted listed]
    constructor
    · intro _ held
      exact absurd held listed
    · intro _
      exact covers_zero bits

/-- The flags that a number holds make no bit that it lacks. -/
theorem covers_toBits_ofBits (distinct : (table.map Prod.snd).Nodup) (bits : UInt64) :
    Covers bits (table.toBits (table.ofBits bits)) := by
  rw [covers_toBits_iff_held distinct]
  intro flag held listed
  exact held

/-- The number that flags make holds those of them that the table has. -/
theorem mem_ofBits_toBits (distinct : (table.map Prod.snd).Nodup) (member : flag ∈ flags)
    (listed : flag ∈ table.map Prod.snd) : flag ∈ table.ofBits (table.toBits flags) := by
  have covered := covers_refl (table.toBits flags)
  rw [covers_toBits_iff_held distinct] at covered
  exact covered flag member listed

theorem ofBits_toBits_ofBits (distinct : (table.map Prod.snd).Nodup) (bits : UInt64) :
    table.ofBits (table.toBits (table.ofBits bits)) = table.ofBits bits := by
  apply ofBits_congr
  intro entry listed
  constructor
  · intro covered
    exact (covers_toBits_ofBits distinct bits).trans covered
  · rw [← mem_ofBits_iff_mask distinct listed, ← mem_ofBits_iff_mask distinct listed]
    intro held
    exact mem_ofBits_toBits distinct held (List.mem_map_of_mem listed)

/-- Of two lists of flags, one with all flags of the table that the other has makes no less. -/
theorem covers_toBits_of_subset (distinct : (table.map Prod.snd).Nodup)
    (among : ∀ flag ∈ table.map Prod.snd, flag ∈ flags → flag ∈ others) :
    Covers (table.toBits others) (table.toBits flags) := by
  rw [covers_toBits_iff_held distinct]
  intro flag member listed
  exact mem_ofBits_toBits distinct (among flag listed member) listed

/-- Listing the flags that a number covers and joining the masks of flags, for a table in which no
flag stands twice.  A number holds, in the order of the table, the flags whose masks it covers; the
number that they make in turn has no bit beside its own and holds the same flags; and a number that
covers another holds its flags in the same order.  Flags of the table are held by the number that
they make, and this depends only on which flags of the table are among them: not on their order, not
on repetitions, and not on flags that the table lacks. -/
theorem flags_closed (distinct : (table.map Prod.snd).Nodup) (bits more : UInt64)
    (flags : List α) :
    (List.Sublist (table.ofBits bits) (table.map Prod.snd) ∧
      ∀ flag, flag ∈ table.ofBits bits ↔ ∃ mask, (mask, flag) ∈ table ∧ Covers bits mask) ∧
    Covers bits (table.toBits (table.ofBits bits)) ∧
    table.ofBits (table.toBits (table.ofBits bits)) = table.ofBits bits ∧
    (Covers more bits → List.Sublist (table.ofBits bits) (table.ofBits more)) ∧
    (∀ flag ∈ flags, flag ∈ table.map Prod.snd → flag ∈ table.ofBits (table.toBits flags)) ∧
    ∀ others, (∀ flag ∈ table.map Prod.snd, flag ∈ flags ↔ flag ∈ others) →
      table.toBits flags = table.toBits others := by
  refine ⟨⟨ofBits_sublist table bits, ?_⟩, covers_toBits_ofBits distinct bits,
    ofBits_toBits_ofBits distinct bits, ofBits_mono table, ?_, ?_⟩
  · intro flag
    exact mem_ofBits_iff_covers
  · intro flag member listed
    exact mem_ofBits_toBits distinct member listed
  · intro others same
    have upper : Covers (table.toBits others) (table.toBits flags) :=
      covers_toBits_of_subset distinct fun flag listed => (same flag listed).1
    have lower : Covers (table.toBits flags) (table.toBits others) :=
      covers_toBits_of_subset distinct fun flag listed => (same flag listed).2
    exact upper.antisymm lower

/-- No capability stands in its table twice. -/
example : (Capability.table.map Prod.snd).Nodup := by decide

/-- A table with a mask of two bits that two others make up, and with a mask of none. -/
def overlappingTable : FlagTable Char :=
  [(4, 'x'), (6, 'b'), (2, 'w'), (0, 'n'), (9, 'p')]

/-- Two flags make a number that holds a third, and one that has no bits; twice each of them, in
the other order and with a flag that the table lacks, they make the same number.  That number makes
itself again, and what it holds a larger one holds in the same order. -/
theorem flags_closed_overlapping :
    (overlappingTable.map Prod.snd).Nodup ∧
      overlappingTable.ofBits (overlappingTable.toBits ['w', 'x']) = ['x', 'b', 'w', 'n'] ∧
      overlappingTable.toBits ['w', 'x'] = overlappingTable.toBits ['x', 'z', 'w', 'x', 'w'] ∧
      'w' ∈ overlappingTable.ofBits (overlappingTable.toBits ['w', 'x']) ∧
      Covers 7 (overlappingTable.toBits (overlappingTable.ofBits 7)) ∧
      overlappingTable.ofBits (overlappingTable.toBits (overlappingTable.ofBits 7)) =
        ['x', 'b', 'w', 'n'] ∧
      List.Sublist (overlappingTable.ofBits 6) (overlappingTable.ofBits 7) := by
  have distinct : (overlappingTable.map Prod.snd).Nodup := by decide
  have wider : Covers 7 6 := covers_iff_and_eq.2 rfl
  obtain ⟨-, -, -, above, held, same⟩ := flags_closed distinct 6 7 ['w', 'x']
  obtain ⟨-, below, again, -⟩ := flags_closed distinct 7 7 []
  have listed : 'w' ∈ overlappingTable.map Prod.snd := by simp [overlappingTable]
  refine ⟨distinct, rfl, same _ ?_, held 'w' List.mem_cons_self listed, below, again, above wider⟩
  simp [overlappingTable]

end FlagTable
end SchemaWire
