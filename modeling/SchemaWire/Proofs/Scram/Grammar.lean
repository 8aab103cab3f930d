import Mathlib.Tactic.MkIffOfInductiveProp
import SchemaWire.Proofs.Scram.Offer

/-!
# The grammar of first messages

The standard lets a server open with a nonce, a salt and a count in this order, and then with
extensions that a client may pass over.  A client reads its three attributes wherever it finds them,
so it answers more than that; this file says how much more.
-/

namespace SchemaWire
namespace Scram

/-- The messages that the standard lets a server open with, towards a client that has sent its
nonce.  The letter of the extensions that a client must not pass over is `m`. -/
inductive Grammatical (client : Client) : String → Prop where
  /-- Three attributes and extensions. -/
  | intro {nonce : String} {salt : List UInt8} {count : Nat} {extensions : List String}
      (plain : ',' ∉ nonce.toList) (others : ∀ extension ∈ extensions, ',' ∉ extension.toList)
      (untold : ∀ letter ∈ ['r', 's', 'i', 'm'], ∀ extension ∈ extensions,
        ¬ [letter, '='] <+: extension.toList)
      (extended : client.nonce.toList <+: nonce.toList) (longer : client.nonce ≠ nonce)
      (positive : 0 < count) (small : count < UInt32.size) :
      Grammatical client (standard nonce salt count extensions)

/-- The parts of a message that has its attributes in order and tells each of them once, demands no
extension, and spells its count without a sign or a leading zero. -/
@[mk_iff]
inductive Orderly : List (List Char) → Prop where
  /-- Three attributes and other parts. -/
  | intro {nonce salt word : List Char} {others : List (List Char)}
      (untold : ∀ letter ∈ ['r', 's', 'i', 'm'], ∀ part ∈ others, ¬ [letter, '='] <+: part)
      (unsigned : word.head? ≠ some '+') (lead : word.head? ≠ some '0') :
      Orderly (('r' :: '=' :: nonce) :: ('s' :: '=' :: salt) :: ('i' :: '=' :: word) :: others)

variable {client : Client}

theorem Orderly.of_grammatical {message : String} (grammatical : Grammatical client message) :
    Orderly (parts message.toList) := by
  obtain ⟨plain, others, untold, -, -, positive, small⟩ := grammatical
  obtain ⟨-, unsigned, lead⟩ := Decimal.read?_eq_some_and_plain_iff.2
    ⟨rfl, positive, Nat.le_sub_one_of_lt small⟩
  rw [parts_standard plain others]
  exact .intro (by simpa using untold) unsigned lead

theorem Grammatical.offered {message : String} (grammatical : Grammatical client message) :
    ∃ nonce salt count, client.Offered message nonce salt count := by
  obtain ⟨plain, others, untold, extended, longer, -, small⟩ := grammatical
  refine ⟨_, _, _, Client.offered_standard plain others ?_ small extended longer⟩
  intro letter member
  exact untold letter (List.mem_append_left ['m'] member)

/-- An orderly message that offers something tells it as the standard has it. -/
theorem Grammatical.of_orderly {message : String} {nonce : List Char} {salt : List UInt8}
    {count : Nat} (offered : client.Offered message nonce salt count)
    (orderly : Orderly (parts message.toList)) : Grammatical client message := by
  obtain ⟨told, salted, ⟨word, counted, read⟩, extended, longer⟩ := Client.offered_iff.1 offered
  generalize known : parts message.toList = pieces at orderly told salted counted
  cases orderly with
  | @intro first second third others untold unsigned lead =>
      obtain ⟨sameNonce, sameSalt, sameWord⟩ := last?_of_untold first second third
        fun letter member => untold letter (List.mem_append_left ['m'] member)
      obtain rfl := Option.some.inj (sameNonce.symm.trans told)
      obtain rfl := Option.some.inj (sameSalt.symm.trans salted)
      obtain rfl := Option.some.inj (sameWord.symm.trans counted)
      obtain ⟨rfl, positive, small⟩ :=
        Decimal.read?_eq_some_and_plain_iff.1 ⟨read, unsigned, lead⟩
      obtain ⟨-, plain, joined⟩ := parts_eq_iff.1 known
      have same : message = standard (String.ofList first) salt count (others.map String.ofList) :=
        String.toList_inj.1 (by
          rw [← joined]
          simp [standard])
      rw [same]
      refine .intro ?_ ?_ ?_ ?_ ?_ positive (by have : UInt32.size = 4294967296 := rfl; omega)
      · have := plain _ List.mem_cons_self
        simpa using this
      · intro extension member
        obtain ⟨part, held, rfl⟩ := List.mem_map.1 member
        simpa using plain part (by simp [held])
      · simpa using untold
      · simpa using extended
      · rintro same
        simp [same] at longer

/-- A client answers the messages whose last nonce goes on from its own, whose last salt is base64
and whose last count is a number, and no others. -/
theorem answers_iff {client : Client} {bytes : List UInt8} :
    (∃ reply next, Client.answer bytes client = .ok reply next) ↔
      ∃ message nonce salt count,
        bytes = Utf8.encode message ∧ client.Offered message nonce salt count := by
  constructor
  · rintro ⟨reply, next, answered⟩
    obtain ⟨message, nonce, salt, count, same, offered, -⟩ := Client.answer_eq_ok.1 answered
    exact ⟨message, nonce, salt, count, same, offered⟩
  · rintro ⟨message, nonce, salt, count, same, offered⟩
    have answered := Client.answer_eq_ok.2 ⟨message, nonce, salt, count, same, offered, rfl, rfl⟩
    exact ⟨_, _, answered⟩

/-- How far the answered messages go beyond the standard: a client answers all messages that the
standard allows, and of those that it answers the standard allows the orderly ones. -/
theorem grammatical_iff_answered_and_orderly (client : Client) (bytes : List UInt8) :
    ((∃ reply next, Client.answer bytes client = .ok reply next) ↔
      ∃ message nonce word salt count, bytes = Utf8.encode message ∧
        last? 'r' (parts message.toList) = some nonce ∧
        last? 's' (parts message.toList) = some (Base64.text salt).toList ∧
        last? 'i' (parts message.toList) = some word ∧
        Decimal.read? (UInt32.size - 1) word = some count ∧
        client.nonce.toList <+: nonce ∧ client.nonce.toList ≠ nonce) ∧
    ((∃ message, bytes = Utf8.encode message ∧ Grammatical client message) ↔
      (∃ reply next, Client.answer bytes client = .ok reply next) ∧
        ∃ message, bytes = Utf8.encode message ∧ Orderly (parts message.toList)) := by
  refine ⟨?_, ?_⟩
  · rw [answers_iff]
    constructor
    · rintro ⟨message, nonce, salt, count, same, offered⟩
      obtain ⟨told, salted, ⟨word, counted, read⟩, longer⟩ := Client.offered_iff.1 offered
      exact ⟨message, nonce, word, salt, count, same, told, salted, counted, read, longer⟩
    · rintro ⟨message, nonce, word, salt, count, same, told, salted, counted, read, longer⟩
      refine ⟨message, nonce, salt, count, same, ?_⟩
      rw [Client.offered_iff]
      exact ⟨told, salted, ⟨word, counted, read⟩, longer⟩
  · rw [answers_iff]
    constructor
    · rintro ⟨message, same, grammatical⟩
      obtain ⟨nonce, salt, count, offered⟩ := grammatical.offered
      have orderly := Orderly.of_grammatical grammatical
      exact ⟨⟨message, nonce, salt, count, same, offered⟩, message, same, orderly⟩
    · rintro ⟨⟨message, nonce, salt, count, rfl, offered⟩, other, same, orderly⟩
      obtain rfl := Utf8.encode_injective same
      exact ⟨message, rfl, Grammatical.of_orderly offered orderly⟩

/-- A count of zero, an extension that must not be passed over, and attributes out of order are
answered all the same. -/
theorem not_grammatical_of_disorderly :
    ∀ message ∈ ["r=abcd,s=AAAA,i=0", "m=x,r=abcd,s=AAAA,i=4096", "i=+1,s=AAAA,r=abcd"],
      let client := Client.ofNonce "user" "pencil" "abc"
      (∃ reply next, Client.answer (Utf8.encode message) client = .ok reply next) ∧
        ¬ ∃ other, Utf8.encode message = Utf8.encode other ∧ Grammatical client other := by
  have salted : (Base64.text [0, 0, 0]).toList = "AAAA".toList := by decide
  intro message member client
  have extent := grammatical_iff_answered_and_orderly client (Utf8.encode message)
  constructor
  · refine extent.1.2 ?_
    simp only [List.mem_cons, List.not_mem_nil, or_false] at member
    rcases member with rfl | rfl | rfl
    · refine ⟨_, "abcd".toList, "0".toList, [0, 0, 0], 0, rfl, ?_⟩
      rw [salted]
      decide
    · refine ⟨_, "abcd".toList, "4096".toList, [0, 0, 0], 4096, rfl, ?_⟩
      rw [salted]
      decide
    · refine ⟨_, "abcd".toList, "+1".toList, [0, 0, 0], 1, rfl, ?_⟩
      rw [salted]
      decide
  · intro grammatical
    obtain ⟨other, same, orderly⟩ := (extent.2.1 grammatical).2
    obtain rfl := Utf8.encode_injective same
    simp only [List.mem_cons, List.not_mem_nil, or_false] at member
    rw [orderly_iff] at orderly
    rcases member with rfl | rfl | rfl
    all_goals simp [parts] at orderly

end Scram
end SchemaWire
