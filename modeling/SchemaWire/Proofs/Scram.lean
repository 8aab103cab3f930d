import SchemaWire.Proofs.Fallible
import SchemaWire.Proofs.Text.Base64
import SchemaWire.Proofs.Text.Utf8
import SchemaWire.Scram

/-!
# Proofs of a password

Which messages of the server a client answers, and which one message it then takes as proof that
the server knows the password.
-/

namespace SchemaWire

/-- The symbols of a text in base64 are bytes of their own. -/
theorem Base64.encode_text (bytes : List UInt8) : Utf8.encode (text bytes) = encode bytes := by
  have single : ∀ byte ∈ encode bytes, Utf8.encodeChar (Char.ofNat byte.toNat) = [byte] := by
    intro byte member
    exact (Utf8.Spelling.one (lt_of_mem_encode member)).encodeChar_ofNat
  rw [Utf8.encode, text, String.toList_ofList, List.flatMap_map]
  generalize encode bytes = symbols at single
  induction symbols with
  | nil => rfl
  | cons byte symbols ih =>
      rw [List.forall_mem_cons] at single
      rw [List.flatMap_cons, single.1, ih single.2]
      rfl

namespace Scram
namespace Client

open Fallible

variable {client next : Client}

/-- A server's first message tells a nonce that goes on where the client's ends, a salt in base64
and an iteration count. -/
def Offered (client : Client) (message : String) (nonce : List Char) (salt : List UInt8)
    (iterations : Nat) : Prop :=
  ∃ symbols,
    Offer.ofMessage message.toList = ⟨some nonce, some symbols, some iterations⟩ ∧
      symbols.flatMap Utf8.encodeChar = Base64.encode salt ∧
      client.nonce.toList <+: nonce ∧ client.nonce.toList ≠ nonce

theorem readOffer_eq_ok {message : String} {nonce : List Char} {salt : List UInt8}
    {iterations : Nat} :
    client.readOffer message = .ok (nonce, salt, iterations) ↔
      client.Offered message nonce salt iterations := by
  have longer (found : List Char) :
      (!client.nonce.toList.isPrefixOf found || decide (client.nonce.toList = found)) = true ↔
        ¬ (client.nonce.toList <+: found ∧ client.nonce.toList ≠ found) := by
    rw [Bool.or_eq_true, Bool.not_eq_true', decide_eq_true_eq, ← Bool.not_eq_true,
      List.isPrefixOf_iff_prefix]
    tauto
  rw [readOffer, Offered]
  rcases Offer.ofMessage message.toList with ⟨_ | found, _ | symbols, _ | count⟩
  case some.some.some =>
    simp only [longer]
    constructor
    · intro read
      split at read
      case isTrue => simp [bind, Except.bind] at read
      case isFalse extended =>
        cases decoded : Base64.decode (symbols.flatMap Utf8.encodeChar) with
        | error flaw => simp [decoded] at read
        | ok bytes =>
            obtain ⟨rfl, rfl, rfl⟩ : found = nonce ∧ bytes = salt ∧ count = iterations := by
              simpa [decoded, pure, Except.pure] using read
            exact ⟨symbols, rfl, Base64.decode_eq_ok_iff.1 decoded, not_not.1 extended⟩
    · rintro ⟨_, same, spelled, extended⟩
      obtain ⟨rfl, rfl, rfl⟩ : found = nonce ∧ symbols = _ ∧ count = iterations := by
        simpa using same
      rw [if_neg (not_not.2 extended), Base64.decode_eq_ok_iff.2 spelled]
      rfl
  all_goals simp

/-- The text that both sides sign: all that has been said but the proofs themselves. -/
def signedText (client : Client) (message : String) (nonce : List Char) : String :=
  client.firstBare ++ "," ++ message ++ "," ++ finalBare nonce

/-- A client decodes a message and reads it as an offer, and only then takes note of its answer. -/
theorem answer_apply (client : Client) (challenge : List UInt8) :
    answer challenge client =
      match Utf8.decode challenge with
      | .error flaw => .error (.firstText flaw) client
      | .ok message =>
          match client.readOffer message with
          | .error fault => .error fault client
          | .ok (nonce, salt, iterations) =>
              let salted := Keyed.derive (Utf8.encode client.password) salt iterations
              let signed := client.signedText message nonce
              .ok (finalBare nonce ++ ",p=" ++ Base64.text (proof salted signed))
                { client with answered := some ⟨salted, signed⟩ } := by
  rw [answer, bind_apply_ok (get_apply client)]
  cases Utf8.decode challenge with
  | error flaw => rfl
  | ok message =>
      simp only
      cases client.readOffer message with
      | error fault => rfl
      | ok offer => rfl

/-- A client answers the messages that offer it what it needs for its proof. -/
theorem answer_eq_ok {challenge : List UInt8} {reply : String} :
    answer challenge client = .ok reply next ↔
      ∃ message nonce salt iterations,
        challenge = Utf8.encode message ∧ client.Offered message nonce salt iterations ∧
        let salted := Keyed.derive (Utf8.encode client.password) salt iterations
        let signed := client.signedText message nonce
        reply = finalBare nonce ++ ",p=" ++ Base64.text (proof salted signed) ∧
          next = { client with answered := some ⟨salted, signed⟩ } := by
  rw [answer_apply]
  constructor
  · intro answered
    split at answered
    case h_1 => simp at answered
    case h_2 message decoded =>
      split at answered
      case h_1 => simp at answered
      case h_2 nonce salt iterations read =>
        obtain ⟨rfl, rfl⟩ := EStateM.Result.ok.inj answered
        exact ⟨message, nonce, salt, iterations, Utf8.decode_eq_ok_iff.1 decoded,
          readOffer_eq_ok.1 read, rfl, rfl⟩
  · rintro ⟨message, nonce, salt, iterations, rfl, offered, rfl, rfl⟩
    rw [Utf8.decode_encode]
    simp only [readOffer_eq_ok.2 offered]

/-- A message that a client does not answer leaves the client as it was. -/
theorem eq_of_answer_error {challenge : List UInt8} {fault : ScramFault}
    (refused : answer challenge client = .error fault next) : next = client := by
  rw [answer_apply] at refused
  split at refused
  case h_1 => exact (EStateM.Result.error.inj refused).2.symm
  case h_2 =>
    split at refused
    case h_1 => exact (EStateM.Result.error.inj refused).2.symm
    case h_2 => simp at refused

theorem readFinal_eq_ok {message symbols : List Char} :
    readFinal message = .ok symbols ↔ message = 'v' :: '=' :: symbols := by
  unfold readFinal
  split
  case h_1 reason => simp
  case h_2 signature => simp
  case h_3 unsigned => simpa using unsigned symbols

/-- The bytes of a server's final message that holds a signature. -/
def finalBytes (signature : List UInt8) : List UInt8 :=
  Utf8.encode "v=" ++ Base64.encode signature

/-- A client takes one message alone as proof, the one with the signature of what it signed. -/
theorem verify_eq_ok {final : List UInt8} :
    client.verify final = .ok () ↔
      ∃ answered, client.answered = some answered ∧
        final = finalBytes (signature answered.salted answered.signed) := by
  rw [verify]
  constructor
  · intro verified
    split at verified
    case h_1 => simp at verified
    case h_2 message decoded =>
      obtain ⟨symbols, read, checked⟩ := bind_eq_ok_iff.1 verified
      split at checked
      case h_1 => simp at checked
      case h_2 received spelled =>
        cases held : client.answered with
        | none => simp [held] at checked
        | some answered =>
            simp only [held] at checked
            split at checked
            case isFalse => simp at checked
            case isTrue same =>
              refine ⟨answered, rfl, ?_⟩
              rw [finalBytes, ← same, ← Base64.decode_eq_ok_iff.1 spelled,
                Utf8.decode_eq_ok_iff.1 decoded, Utf8.encode, readFinal_eq_ok.1 read]
              rfl
  · rintro ⟨answered, held, rfl⟩
    have spelled : finalBytes (signature answered.salted answered.signed) =
        Utf8.encode ("v=" ++ Base64.text (signature answered.salted answered.signed)) := by
      rw [finalBytes, Utf8.encode_append, Base64.encode_text]
    rw [spelled, Utf8.decode_encode]
    refine bind_eq_ok_iff.2
      ⟨(Base64.text (signature answered.salted answered.signed)).toList, ?_, ?_⟩
    · exact readFinal_eq_ok.2 (by rw [String.toList_append]; rfl)
    · have read := Base64.encode_text (signature answered.salted answered.signed)
      rw [Utf8.encode] at read
      rw [read, Base64.decode_encode]
      simp [held, pure, Except.pure]

end Client
end Scram
end SchemaWire
