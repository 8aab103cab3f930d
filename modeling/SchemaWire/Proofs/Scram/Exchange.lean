import SchemaWire.Proofs.Scram.Offer
import SchemaWire.Scram.Run

/-!
# A whole exchange

A server that goes on from the client's nonce gets a proof that only who knows the password can
make, and the client then believes the one server that knows it too.  Nothing else that it is handed
gets in the way, and nothing is believed before.
-/

namespace SchemaWire

/-- A mask laid over a text twice gives the text back. -/
theorem Keyed.xor_xor_cancel {text mask : List UInt8} (same : text.length = mask.length) :
    xor (xor text mask) mask = text := by
  induction text generalizing mask with
  | nil => rfl
  | cons byte text ih =>
      cases mask with
      | nil => simp at same
      | cons other mask =>
          have rest : xor (xor text mask) mask = text := ih (by simpa using same)
          rw [xor, xor, List.zipWith_cons_cons, List.zipWith_cons_cons, UInt8.xor_assoc,
            UInt8.xor_self, UInt8.xor_zero]
          exact congrArg (byte :: ·) rest

namespace Scram
namespace Client

variable {client next : Client}

/-! ## Calls in turn -/

/-- No call touches anything but the challenge answered last. -/
theorem apply_snd (client : Client) (call : Call) :
    ∃ answered, (client.apply call).2 = { client with answered } := by
  cases call with
  | verify serverFinal => exact ⟨client.answered, rfl⟩
  | answer serverFirst =>
      rw [apply]
      split
      case h_1 reply next known =>
        obtain ⟨message, nonce, salt, count, -, -, -, rfl⟩ := answer_eq_ok.1 known
        exact ⟨_, rfl⟩
      case h_2 fault next known =>
        obtain rfl := eq_of_answer_error known
        exact ⟨next.answered, rfl⟩

theorem after_eq (client : Client) (calls : List Call) :
    ∃ answered, client.after calls = { client with answered } := by
  induction calls generalizing client with
  | nil => exact ⟨client.answered, rfl⟩
  | cons call calls ih =>
      obtain ⟨first, known⟩ := client.apply_snd call
      obtain ⟨last, later⟩ := ih { client with answered := first }
      exact ⟨last, by rw [after_cons, known, later]⟩

/-- A message that a client does not answer leaves the client as it was. -/
theorem eq_of_apply_error {serverFirst : List UInt8} {fault : ScramFault}
    (refused : client.apply (.answer serverFirst) = (.error fault, next)) : next = client := by
  rw [apply] at refused
  split at refused
  case h_1 => simp at refused
  case h_2 other left failed =>
    obtain ⟨-, rfl⟩ := Prod.mk.inj refused
    exact eq_of_answer_error failed

theorem after_of_refused {calls : List Call}
    (refused : ∀ serverFirst, .answer serverFirst ∈ calls →
      ∃ fault left, client.apply (.answer serverFirst) = (.error fault, left)) :
    client.after calls = client := by
  induction calls with
  | nil => rfl
  | cons call calls ih =>
      have rest : client.after calls = client := by
        refine ih ?_
        intro serverFirst member
        exact refused serverFirst (List.mem_cons_of_mem call member)
      cases call with
      | verify serverFinal => exact rest
      | answer serverFirst =>
          obtain ⟨fault, left, known⟩ := refused serverFirst List.mem_cons_self
          obtain rfl := eq_of_apply_error known
          rw [after_cons, known]
          exact rest

/-- Calls leave a client as it was unless it answers one of them. -/
theorem after_eq_or_answered (client : Client) (calls : List Call) :
    client.after calls = client ∨
      ∃ before serverFirst behind, calls = before ++ .answer serverFirst :: behind ∧
        ∃ reply next,
          (client.after before).apply (.answer serverFirst) = (.ok (some reply), next) := by
  induction calls with
  | nil => exact .inl rfl
  | cons call calls ih =>
      -- A call that leaves the client as it was can be put before the ones that follow.
      have skip (unmoved : (client.apply call).2 = client) :
          client.after (call :: calls) = client ∨
            ∃ before serverFirst behind, call :: calls = before ++ .answer serverFirst :: behind ∧
              ∃ reply next,
                (client.after before).apply (.answer serverFirst) = (.ok (some reply), next) := by
        rcases ih with same | ⟨before, serverFirst, behind, rfl, answered⟩
        · exact .inl (by rw [after_cons, unmoved, same])
        · exact .inr ⟨call :: before, serverFirst, behind, rfl, by rwa [after_cons, unmoved]⟩
      cases call with
      | verify serverFinal => exact skip rfl
      | answer serverFirst =>
          cases known : answer serverFirst client with
          | error fault left =>
              obtain rfl := eq_of_answer_error known
              exact skip (by rw [apply, known])
          | ok reply next =>
              refine .inr ⟨[], serverFirst, calls, rfl, reply, next, ?_⟩
              rw [after_nil, apply, known]

/-! ## The exchange -/

/-- Who can make the signature can take it off, and is left with the client key. -/
theorem xor_proof (salted : List UInt8) (signed : String) :
    Keyed.xor (proof salted signed)
        (Keyed.code (Sha256.hash (clientKey salted)) (Utf8.encode signed)) = clientKey salted :=
  Keyed.xor_xor_cancel (by simp [clientKey])

theorem verify_of_answered {salted final : List UInt8} {signed : String}
    (held : client.answered = some ⟨salted, signed⟩) :
    client.verify final = .ok () ↔ final = finalBytes (signature salted signed) := by
  simp [verify_eq_ok, held]

/-- The server's half of an exchange answers the client's.  A message that is refused leaves the
client as it was.  The proof is the client key once the signature that only its digest gives is
taken off; the final message that is believed is the server's signature, whatever else the client is
handed on the way; and a client that has answered nothing believes nothing. -/
theorem exchange_exact (user password nonce : String) :
    (∀ (client next : Client) serverFirst fault,
      client.apply (.answer serverFirst) = (.error fault, next) → next = client) ∧
    let fresh := ofNonce user password nonce
    (∀ (suffix : String) (salt : List UInt8) (count : UInt32) (earlier : List Call),
      ',' ∉ nonce.toList → ',' ∉ suffix.toList → suffix ≠ "" →
      let shared := nonce ++ suffix
      let offer := "r=" ++ shared ++ ",s=" ++ Base64.text salt ++ ",i=" ++ toString count.toNat
      let bare := "c=biws,r=" ++ shared
      let signed := Utf8.encode (fresh.firstBare ++ "," ++ offer ++ "," ++ bare)
      let salted := Keyed.derive (Utf8.encode password) salt count.toNat
      let key := Keyed.code salted (Utf8.encode "Client Key")
      ∃ proof next,
        (fresh.after earlier).apply (.answer (Utf8.encode offer)) =
            (.ok (some (bare ++ ",p=" ++ Base64.text proof)), next) ∧
          proof.length = 32 ∧ Keyed.xor proof (Keyed.code (Sha256.hash key) signed) = key ∧
          ∀ later, (∀ serverFirst, .answer serverFirst ∈ later →
              ∃ fault left, next.apply (.answer serverFirst) = (.error fault, left)) →
            ∀ final, (next.after later).verify final = .ok () ↔
              final = Utf8.encode "v=" ++ Base64.encode
                (Keyed.code (Keyed.code salted (Utf8.encode "Server Key")) signed)) ∧
    ∀ calls final, (fresh.after calls).verify final = .ok () →
      ∃ before serverFirst behind, calls = before ++ .answer serverFirst :: behind ∧
        ∃ reply next,
          (fresh.after before).apply (.answer serverFirst) = (.ok (some reply), next) := by
  constructor
  · intro client next serverFirst fault refused
    exact eq_of_apply_error refused
  intro fresh
  constructor
  · intro suffix salt count earlier plainNonce plainSuffix nonempty shared offer bare signed salted
      key
    obtain ⟨held, known⟩ := fresh.after_eq earlier
    have offered : (fresh.after earlier).Offered offer shared.toList salt count.toNat := by
      rw [known, show offer = standard shared salt count.toNat [] from (standard_nil ..).symm]
      refine offered_standard ?_ (by simp) (by simp) count.toNat_lt_size ?_ ?_
      · simp [shared, plainNonce, plainSuffix]
      · exact ⟨suffix.toList, String.toList_append.symm⟩
      · intro same
        exact nonempty (by simpa [fresh, ofNonce, shared] using congrArg String.toList same)
    have own : finalBare shared.toList = bare := by rw [finalBare, String.ofList_toList]
    have said : (fresh.after earlier).signedText offer shared.toList =
        fresh.firstBare ++ "," ++ offer ++ "," ++ bare := by
      rw [signedText, own, known, firstBare, firstBare]
    have answered := answer_eq_ok.2 ⟨offer, _, _, _, rfl, offered, rfl, rfl⟩
    rw [own, said, known] at answered
    refine ⟨_, _, by rw [known, apply, answered], ?_, ?_, ?_⟩
    · exact length_proof _ _
    · exact xor_proof _ _
    · intro later refused final
      rw [after_of_refused refused]
      exact verify_of_answered rfl
  · intro calls final verified
    rcases fresh.after_eq_or_answered calls with same | answered
    · rw [same] at verified
      obtain ⟨answered, held, -⟩ := verify_eq_ok.1 verified
      simp [fresh, ofNonce] at held
    · exact answered

/-- A server that adds one letter to the nonce, with a salt of three bytes. -/
theorem exchange_exact_sample :
    ∃ proof next,
      (ofNonce "user" "pencil" "abc").apply (.answer (Utf8.encode "r=abcd,s=AAEC,i=4096")) =
          (.ok (some ("c=biws,r=abcd,p=" ++ Base64.text proof)), next) ∧ proof.length = 32 := by
  obtain ⟨proof, next, answered, length, -⟩ :=
    (exchange_exact "user" "pencil" "abc").2.1 "d" [0, 1, 2] 4096 []
      (by decide) (by decide) (by decide)
  exact ⟨proof, next, answered, length⟩

end Client
end Scram
end SchemaWire
