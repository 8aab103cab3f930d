import SchemaWire.Text.Decimal
import Mathlib.Data.List.Basic
import Mathlib.Data.List.Induction
import Mathlib.Tactic.Common

/-!
# Decimal numbers read back

Which texts are read as which numbers.  A number is read from its own digits, and from these alone
once a plus sign and leading zeros are left out.
-/

namespace SchemaWire
namespace Decimal

theorem digit?_eq_some_iff {char : Char} {digit : Nat} :
    digit? char = some digit ↔ char.isDigit = true ∧ char.toNat - 48 = digit := by
  rw [digit?, Char.isDigit]
  simp [Char.le_def, UInt32.le_iff_toNat_le]

/-- A digit is the one of a number below ten. -/
theorem eq_digitChar_of_isDigit {char : Char} (shown : char.isDigit = true) :
    ∃ digit < 10, char = Nat.digitChar digit := by
  obtain ⟨low, high⟩ := Char.isDigit_iff_toNat.1 shown
  have every : ∀ digit < 10, Char.ofNat (digit + 48) = Nat.digitChar digit := by decide
  have zero : '0'.toNat = 48 := rfl
  have nine : '9'.toNat = 57 := rfl
  refine ⟨char.toNat - 48, by omega, ?_⟩
  rw [← every _ (by omega), Nat.sub_add_cancel (by omega), Char.ofNat_toNat]

theorem continue?_eq_some_iff {value number : Nat} {text : List Char} :
    continue? value text = some number ↔
      (∀ char ∈ text, char.isDigit = true) ∧ Nat.ofDigitChars 10 text value = number := by
  induction text generalizing value with
  | nil => simp [continue?]
  | cons char text ih =>
      simp only [continue?, Option.bind_eq_bind, Option.bind_eq_some_iff, digit?_eq_some_iff, ih,
        Nat.ofDigitChars_cons, List.forall_mem_cons, Nat.mul_comm 10 value]
      constructor
      · rintro ⟨digit, ⟨shown, rfl⟩, others, same⟩
        exact ⟨⟨shown, others⟩, same⟩
      · rintro ⟨⟨shown, others⟩, same⟩
        exact ⟨_, ⟨shown, rfl⟩, others, same⟩

/-- What follows a plus sign has to be digits. -/
theorem read?_plus_eq_some_iff {bound number : Nat} {digits : List Char} :
    read? bound ('+' :: digits) = some number ↔
      digits ≠ [] ∧ (∀ char ∈ digits, char.isDigit = true) ∧
        Nat.ofDigitChars 10 digits 0 = number ∧ number ≤ bound := by
  cases digits with
  | nil => simp [read?]
  | cons char rest =>
      have opened : read? bound ('+' :: char :: rest) =
          (continue? 0 (char :: rest)).bind fun value =>
            if value ≤ bound then some value else none := rfl
      rw [opened]
      simp only [Option.bind_eq_some_iff, continue?_eq_some_iff]
      constructor
      · rintro ⟨value, ⟨shown, rfl⟩, small⟩
        obtain ⟨fits, same⟩ := Option.ite_none_right_eq_some.1 small
        obtain rfl := Option.some.inj same
        exact ⟨by simp, shown, rfl, fits⟩
      · rintro ⟨-, shown, rfl, fits⟩
        exact ⟨_, ⟨shown, rfl⟩, if_pos fits⟩

/-- Where there is no plus sign, it can be put. -/
theorem read?_of_plain {bound : Nat} {text : List Char} (plain : ∀ rest, text ≠ '+' :: rest) :
    read? bound text = read? bound ('+' :: text) := by
  rw [read?.eq_def]
  split
  case h_1 rest => exact absurd rfl (plain rest)
  case h_2 => rfl

/-- The digits of a number, with or without a plus sign before them. -/
theorem read?_eq_some_iff {bound number : Nat} {text : List Char} :
    read? bound text = some number ↔
      ∃ digits, (text = digits ∨ text = '+' :: digits) ∧ digits ≠ [] ∧
        (∀ char ∈ digits, char.isDigit = true) ∧ Nat.ofDigitChars 10 digits 0 = number ∧
        number ≤ bound := by
  by_cases signed : ∃ rest, text = '+' :: rest
  case pos =>
    obtain ⟨rest, rfl⟩ := signed
    rw [read?_plus_eq_some_iff]
    constructor
    · intro known
      exact ⟨rest, .inr rfl, known⟩
    · rintro ⟨digits, rfl | same, known⟩
      · exact absurd (known.2.1 '+' List.mem_cons_self) (by decide)
      · obtain rfl := List.tail_eq_of_cons_eq same
        exact known
  case neg =>
    have plain : ∀ rest, text ≠ '+' :: rest := not_exists.1 signed
    rw [read?_of_plain plain, read?_plus_eq_some_iff]
    constructor
    · intro known
      exact ⟨text, .inl rfl, known⟩
    · rintro ⟨digits, rfl | rfl, known⟩
      · exact known
      · exact absurd rfl (plain digits)

/-- A number is read from its own digits if it keeps to the bound. -/
theorem read?_toString {bound number : Nat} :
    read? bound (toString number).toList = some number ↔ number ≤ bound := by
  rw [Nat.toString_eq_ofList_toDigits, String.toList_ofList, read?_eq_some_iff]
  constructor
  · rintro ⟨_, _, _, _, _, fits⟩
    exact fits
  · intro fits
    refine ⟨_, .inl rfl, Nat.toDigits_ne_nil, ?_, Nat.ofDigitChars_ten_toDigits, fits⟩
    intro char member
    exact Nat.isDigit_of_mem_toDigits (by decide) (by decide) member

theorem pos_of_toDigits {number : Nat} (lead : (Nat.toDigits 10 number).head? ≠ some '0') :
    0 < number := by
  by_contra none
  rw [Nat.eq_zero_of_not_pos none, Nat.toDigits_zero] at lead
  exact lead rfl

/-- Digits of which the first is no zero are the ones that their number has. -/
theorem toDigits_ofDigitChars {digits : List Char} (nonempty : digits ≠ [])
    (shown : ∀ char ∈ digits, char.isDigit = true) (lead : digits.head? ≠ some '0') :
    Nat.toDigits 10 (Nat.ofDigitChars 10 digits 0) = digits := by
  -- The last digit off the end, so that the first one stays where it is.
  induction digits using List.reverseRecOn with
  | nil => exact absurd rfl nonempty
  | append_singleton front char ih =>
      obtain ⟨digit, small, rfl⟩ := eq_digitChar_of_isDigit (shown char (by simp))
      rw [Nat.ofDigitChars_append, Nat.ofDigitChars_cons_digitChar_of_lt_ten small,
        Nat.ofDigitChars_nil]
      cases front with
      | nil => simp [Nat.toDigits_of_lt_base small]
      | cons first others =>
          have shown' : ∀ char ∈ first :: others, char.isDigit = true := by
            intro char member
            exact shown char (List.mem_append_left _ member)
          have known := ih (by simp) shown' (by simpa using lead)
          have positive := pos_of_toDigits (by rw [known]; simpa using lead)
          rw [← Nat.toDigits_append_toDigits (by decide) positive small, known,
            Nat.toDigits_of_lt_base small]

theorem head?_toDigits_ne {number : Nat} (positive : 0 < number) :
    (Nat.toDigits 10 number).head? ≠ some '0' := by
  induction number using Nat.strongRecOn with
  | ind number ih =>
      rw [Nat.toDigits_eq_if (by decide)]
      split
      case isTrue => simpa using Nat.ne_of_gt positive
      case isFalse =>
        have shorter := ih (number / 10) (by omega) (by omega)
        rwa [List.head?_append_of_ne_nil _ Nat.toDigits_ne_nil]

/-- The one text for a positive number that has neither a sign nor a leading zero. -/
theorem read?_eq_some_and_plain_iff {bound number : Nat} {text : List Char} :
    read? bound text = some number ∧ text.head? ≠ some '+' ∧ text.head? ≠ some '0' ↔
      text = (toString number).toList ∧ 0 < number ∧ number ≤ bound := by
  rw [Nat.toString_eq_ofList_toDigits, String.toList_ofList]
  constructor
  · rintro ⟨known, unsigned, lead⟩
    obtain ⟨digits, rfl | rfl, nonempty, shown, rfl, fits⟩ := read?_eq_some_iff.1 known
    · have same := toDigits_ofDigitChars nonempty shown lead
      exact ⟨same.symm, pos_of_toDigits (by rwa [same]), fits⟩
    · exact absurd rfl unsigned
  · rintro ⟨rfl, positive, fits⟩
    have known := read?_toString.2 fits
    rw [Nat.toString_eq_ofList_toDigits, String.toList_ofList] at known
    refine ⟨known, ?_, head?_toDigits_ne positive⟩
    intro signed
    have digit := Nat.isDigit_of_mem_toDigits (by decide) (by decide) (List.mem_of_mem_head? signed)
    exact absurd digit (by decide)

end Decimal
end SchemaWire
