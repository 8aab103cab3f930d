import Mathlib.Data.List.Induction
import SchemaWire.Proofs.Scram
import SchemaWire.Proofs.Text.Decimal

/-!
# What a server's first message tells

A first message is cut at its commas.  Of the attributes of one letter the last one counts, wherever
it stands, so the offer of a message is known from three lookups among its parts.
-/

namespace SchemaWire

theorem Utf8.encode_injective {text other : String} (same : encode text = encode other) :
    text = other := by
  simpa using congrArg decode same

theorem Base64.comma_notMem_text (bytes : List UInt8) : ',' ∉ (text bytes).toList := by
  rw [text, String.toList_ofList, List.mem_map]
  rintro ⟨byte, member, same⟩
  have code := congrArg Char.toNat same
  rw [Utf8.toNat_ofNat (by have := lt_of_mem_encode member; omega)] at code
  obtain rfl : byte = 44 := UInt8.toNat_inj.1 code
  exact comma_notMem_encode bytes member

namespace Scram

/-! ## Parts between commas -/

theorem parts_eq_splitOn (text : List Char) : parts text = text.splitOn ',' := by
  induction text with
  | nil => rfl
  | cons char text ih =>
      rw [parts, List.splitOn_cons_eq_if_modifyHead, ih]
      by_cases comma : char = ','
      case pos => simp [comma]
      case neg =>
        rw [if_neg comma, if_neg (by simpa using comma)]
        split
        case h_1 none => exact absurd none (List.splitOn_ne_nil ',' text)
        case h_2 part others known => rw [known, List.modifyHead_cons]

theorem comma_notMem_of_mem_parts {text part : List Char} (member : part ∈ parts text) :
    ',' ∉ part := by
  induction text generalizing part with
  | nil => simp_all [parts]
  | cons char text ih =>
      rw [parts] at member
      split at member
      case isTrue =>
        rcases List.mem_cons.1 member with rfl | later
        · exact List.not_mem_nil
        · exact ih later
      case isFalse other =>
        split at member
        case h_1 =>
          obtain rfl := List.mem_singleton.1 member
          simpa using Ne.symm other
        case h_2 first others known =>
          rw [known] at ih
          rcases List.mem_cons.1 member with rfl | later
          · simpa [Ne.symm other] using ih List.mem_cons_self
          · exact ih (List.mem_cons_of_mem _ later)

/-- The parts of a text are the pieces without commas that it is joined from. -/
theorem parts_eq_iff {text : List Char} {pieces : List (List Char)} :
    parts text = pieces ↔
      pieces ≠ [] ∧ (∀ piece ∈ pieces, ',' ∉ piece) ∧ [','].intercalate pieces = text := by
  constructor
  · rintro rfl
    refine ⟨?_, ?_, ?_⟩
    · rw [parts_eq_splitOn]
      exact List.splitOn_ne_nil ',' text
    · intro piece member
      exact comma_notMem_of_mem_parts member
    · rw [parts_eq_splitOn]
      exact List.intercalate_splitOn ','
  · rintro ⟨nonempty, plain, rfl⟩
    rw [parts_eq_splitOn]
    exact List.splitOn_intercalate ',' plain nonempty

/-! ## Attributes -/

/-- The value that a part tells under a letter. -/
def value? (letter : Char) : List Char → Option (List Char)
  | name :: '=' :: value => if name = letter then some value else none
  | _ => none

theorem value?_eq_some_iff {letter : Char} {part value : List Char} :
    value? letter part = some value ↔ part = letter :: '=' :: value := by
  unfold value?
  split
  case h_1 name known => simp
  case h_2 unnamed => simpa using unnamed letter value

theorem value?_eq_none_iff {letter : Char} {part : List Char} :
    value? letter part = none ↔ ¬ [letter, '='] <+: part := by
  simp only [Option.eq_none_iff_forall_ne_some, ne_eq, value?_eq_some_iff]
  constructor
  · rintro untold ⟨value, same⟩
    exact untold value same.symm
  · rintro unopened value same
    exact unopened ⟨value, same.symm⟩

/-- The value that counts among parts: the last one told under a letter. -/
def last? (letter : Char) (pieces : List (List Char)) : Option (List Char) :=
  (pieces.filterMap (value? letter)).getLast?

theorem last?_append_singleton (letter : Char) (pieces : List (List Char)) (part : List Char) :
    last? letter (pieces ++ [part]) = (value? letter part).or (last? letter pieces) := by
  rw [last?, last?, List.filterMap_append, List.getLast?_append]
  cases known : value? letter part <;> simp [known]

theorem last?_cons (letter : Char) (part : List Char) (pieces : List (List Char)) :
    last? letter (part :: pieces) = (last? letter pieces).or (value? letter part) := by
  rw [last?, last?, List.filterMap_cons]
  cases value? letter part with
  | none => simp
  | some value =>
      rw [List.getLast?_cons]
      cases (pieces.filterMap (value? letter)).getLast? <;> rfl

theorem last?_eq_none {letter : Char} {pieces : List (List Char)}
    (untold : ∀ part ∈ pieces, ¬ [letter, '='] <+: part) : last? letter pieces = none := by
  have nothing : pieces.filterMap (value? letter) = [] := by
    rw [List.filterMap_eq_nil_iff]
    intro part member
    exact value?_eq_none_iff.2 (untold part member)
  rw [last?, nothing]
  rfl

/-- Attributes in order, of which no other part tells anything again, all count. -/
theorem last?_of_untold (nonce salt word : List Char) {others : List (List Char)}
    (untold : ∀ letter ∈ ['r', 's', 'i'], ∀ part ∈ others, ¬ [letter, '='] <+: part) :
    let pieces := ('r' :: '=' :: nonce) :: ('s' :: '=' :: salt) :: ('i' :: '=' :: word) :: others
    last? 'r' pieces = some nonce ∧ last? 's' pieces = some salt ∧
      last? 'i' pieces = some word := by
  have none (letter : Char) (member : letter ∈ ['r', 's', 'i']) : last? letter others = .none :=
    last?_eq_none (untold letter member)
  simp only [last?_cons, none 'r' (by simp), none 's' (by simp), none 'i' (by simp)]
  exact ⟨rfl, rfl, rfl⟩

namespace Offer

theorem foldl_add (pieces : List (List Char)) :
    pieces.foldl add empty = ⟨last? 'r' pieces, last? 's' pieces,
      (last? 'i' pieces).bind (Decimal.read? (UInt32.size - 1))⟩ := by
  induction pieces using List.reverseRecOn with
  | nil => rfl
  | append_singleton pieces part ih =>
      simp only [List.foldl_append, List.foldl_cons, List.foldl_nil, ih, last?_append_singleton]
      unfold add
      split
      case h_1 value => simp [value?]
      case h_2 value => simp [value?]
      case h_3 value => simp [value?]
      case h_4 nonce salt count =>
        have none {letter : Char} (other : ∀ value, part ≠ letter :: '=' :: value) :
            value? letter part = .none := by
          rw [Option.eq_none_iff_forall_ne_some]
          intro value known
          exact other value (value?_eq_some_iff.1 known)
        rw [none nonce, none salt, none count]
        simp

end Offer

namespace Client

variable {client : Client}

/-- What a message offers, told from the last value under each letter. -/
theorem offered_iff {message : String} {nonce : List Char} {salt : List UInt8} {count : Nat} :
    client.Offered message nonce salt count ↔
      last? 'r' (parts message.toList) = some nonce ∧
        last? 's' (parts message.toList) = some (Base64.text salt).toList ∧
        (∃ word, last? 'i' (parts message.toList) = some word ∧
          Decimal.read? (UInt32.size - 1) word = some count) ∧
        client.nonce.toList <+: nonce ∧ client.nonce.toList ≠ nonce := by
  have spelled (symbols : List Char) :
      symbols.flatMap Utf8.encodeChar = Base64.encode salt ↔
        symbols = (Base64.text salt).toList := by
    rw [← Base64.encode_text]
    constructor
    · intro same
      have known : String.ofList symbols = Base64.text salt :=
        Utf8.encode_injective (by rwa [Utf8.encode, String.toList_ofList])
      rw [← known, String.toList_ofList]
    · rintro rfl
      rfl
  rw [Offered, Offer.ofMessage, Offer.foldl_add]
  simp only [Offer.mk.injEq, spelled, Option.bind_eq_some_iff]
  constructor
  · rintro ⟨symbols, ⟨told, salted, counted⟩, rfl, longer⟩
    exact ⟨told, salted, counted, longer⟩
  · rintro ⟨told, salted, counted, longer⟩
    exact ⟨_, ⟨told, salted, counted⟩, rfl, longer⟩

end Client

/-! ## Messages in standard form -/

/-- A first message as the standard has it: the nonce, the salt and the count in this order, and
then whatever extensions there are. -/
def standard (nonce : String) (salt : List UInt8) (count : Nat) (extensions : List String) :
    String :=
  ",".intercalate
    (("r=" ++ nonce) :: ("s=" ++ Base64.text salt) :: ("i=" ++ toString count) :: extensions)

theorem standard_nil (nonce : String) (salt : List UInt8) (count : Nat) :
    standard nonce salt count [] =
      "r=" ++ nonce ++ ",s=" ++ Base64.text salt ++ ",i=" ++ toString count := by
  apply String.toList_inj.1
  simp [standard]

theorem parts_standard {nonce : String} {salt : List UInt8} {count : Nat}
    {extensions : List String} (plain : ',' ∉ nonce.toList)
    (others : ∀ extension ∈ extensions, ',' ∉ extension.toList) :
    parts (standard nonce salt count extensions).toList =
      ('r' :: '=' :: nonce.toList) :: ('s' :: '=' :: (Base64.text salt).toList) ::
        ('i' :: '=' :: (toString count).toList) :: extensions.map String.toList := by
  refine parts_eq_iff.2 ⟨by simp, ?_, ?_⟩
  · have digits : ',' ∉ Nat.toDigits 10 count := by
      intro member
      exact absurd (Nat.isDigit_of_mem_toDigits (by decide) (by decide) member) (by decide)
    simpa [plain, Base64.comma_notMem_text salt, digits] using others
  · simp [standard]

/-- A message in standard form offers what it tells, if its nonce goes on from the client's and no
extension tells anything of it again. -/
theorem Client.offered_standard {client : Client} {nonce : String} {salt : List UInt8}
    {count : Nat} {extensions : List String} (plain : ',' ∉ nonce.toList)
    (others : ∀ extension ∈ extensions, ',' ∉ extension.toList)
    (untold : ∀ letter ∈ ['r', 's', 'i'], ∀ extension ∈ extensions,
      ¬ [letter, '='] <+: extension.toList)
    (small : count < UInt32.size) (extended : client.nonce.toList <+: nonce.toList)
    (longer : client.nonce ≠ nonce) :
    client.Offered (standard nonce salt count extensions) nonce.toList salt count := by
  obtain ⟨told, salted, counted⟩ :=
    last?_of_untold nonce.toList (Base64.text salt).toList (toString count).toList
      (show ∀ letter ∈ ['r', 's', 'i'], ∀ part ∈ extensions.map String.toList,
        ¬ [letter, '='] <+: part by simpa using untold)
  rw [offered_iff, parts_standard plain others]
  have read := Decimal.read?_toString.2 (Nat.le_sub_one_of_lt small)
  refine ⟨told, salted, ⟨_, counted, read⟩, extended, ?_⟩
  intro same
  exact longer (String.toList_inj.1 same)

end Scram
end SchemaWire
