import SchemaWire.Digest.Keyed
import SchemaWire.Text.Base64
import SchemaWire.Text.Decimal
import SchemaWire.Text.Utf8

/-!
# Salted challenge and response

The client's side of SCRAM-SHA-256 without channel binding.  The client names a user and a nonce;
the server extends the nonce and tells a salt and an iteration count; the client proves that it
knows the password, and the server proves that it knows a key made from it.
-/

namespace SchemaWire

/-- Why an exchange does not go on. -/
inductive ScramFault where
  /-- The server's first message is no text. -/
  | firstText (flaw : Utf8.Flaw)
  /-- The server's first message has no nonce. -/
  | nonceMissing
  /-- The server's first message has no salt. -/
  | saltMissing
  /-- The server's first message has no iteration count. -/
  | iterationsMissing
  /-- The server's nonce is not longer than the client's, or does not begin with it. -/
  | nonceForeign
  /-- The salt is not base64. -/
  | salt (flaw : Base64.Flaw)
  /-- The server's final message is no text. -/
  | finalText (flaw : Utf8.Flaw)
  /-- The server does not accept the proof. -/
  | rejected (reason : String)
  /-- The server's final message is neither a signature nor a rejection. -/
  | finalForm
  /-- The server's signature is not base64. -/
  | signature (flaw : Base64.Flaw)
  /-- The server's final message comes before its first. -/
  | unanswered
  /-- The server's signature is not the one that the password gives. -/
  | signatureWrong
  deriving DecidableEq, Repr

/-- A fault of an exchange in words. -/
def ScramFault.message : ScramFault → String
  | .firstText flaw => "Invalid server-first-message: " ++ flaw.message
  | .nonceMissing => "Missing nonce in server-first-message"
  | .saltMissing => "Missing salt in server-first-message"
  | .iterationsMissing => "Missing iterations in server-first-message"
  | .nonceForeign => "Server nonce doesn't extend client nonce"
  | .salt flaw => "Invalid salt: " ++ flaw.message
  | .finalText flaw => "Invalid server-final-message: " ++ flaw.message
  | .rejected reason => "Server rejected proof: " ++ reason
  | .finalForm => "Invalid server-final-message format"
  | .signature flaw => "Invalid server signature: " ++ flaw.message
  | .unanswered => "Missing salted password"
  | .signatureWrong => "The received signature didn't match the expected one"

namespace Scram

/-- The name of the mechanism. -/
def mechanism : String := "SCRAM-SHA-256"

/-- A character of a user name as the messages hold it: commas separate attributes there and
equals signs introduce escapes, so both are escaped. -/
def escapeChar (char : Char) : List Char :=
  match char with
  | '=' => ['=', '3', 'D']
  | ',' => ['=', '2', 'C']
  | char => [char]

/-- A user name as the messages hold it. -/
def escape (user : String) : String :=
  String.ofList (user.toList.flatMap escapeChar)

/-- The parts of a text between commas. -/
def parts : List Char → List (List Char)
  | [] => [[]]
  | char :: rest =>
      if char = ',' then
        [] :: parts rest
      else
        match parts rest with
        | [] => [[char]]
        | part :: others => (char :: part) :: others

/-- What a server's first message tells; an attribute that it leaves out is absent. -/
structure Offer where
  /-- The nonce of both sides. -/
  nonce : Option (List Char)
  /-- The salt in base64. -/
  salt : Option (List Char)
  /-- The iteration count. -/
  iterations : Option Nat
  deriving DecidableEq, Repr

namespace Offer

/-- The offer that tells nothing. -/
def empty : Offer := ⟨none, none, none⟩

/-- Take in one part of a message.  A later attribute replaces an earlier one, and parts that are
no known attribute are passed over. -/
def add (offer : Offer) (part : List Char) : Offer :=
  match part with
  | 'r' :: '=' :: value => { offer with nonce := some value }
  | 's' :: '=' :: value => { offer with salt := some value }
  | 'i' :: '=' :: value => { offer with iterations := Decimal.read? (UInt32.size - 1) value }
  | _ => offer

/-- The offer of a message. -/
def ofMessage (message : List Char) : Offer :=
  (parts message).foldl add empty

end Offer

/-- What remains of an answered challenge until the server's final message. -/
structure Answered where
  /-- The key that the password stretches to. -/
  salted : List UInt8
  /-- The text that both sides sign. -/
  signed : String
  deriving DecidableEq, Repr

/-- A client in an exchange. -/
structure Client where
  /-- The user name, escaped. -/
  user : String
  /-- The password. -/
  password : String
  /-- The client's nonce. -/
  nonce : String
  /-- The challenge answered last. -/
  answered : Option Answered
  deriving DecidableEq, Repr

/-- A computation that may take a client further. -/
abbrev Answers (α : Type) := EStateM ScramFault Client α

namespace Client

/-- A client with a nonce of the caller's choice. -/
def ofNonce (user password nonce : String) : Client :=
  { user := escape user, password, nonce, answered := none }

/-- A client whose nonce spells random bytes in base64. -/
def ofRandom (user password : String) (random : List UInt8) : Client :=
  ofNonce user password (Base64.text random)

/-- The client's first message without the header on channel binding. -/
def firstBare (client : Client) : String :=
  "n=" ++ client.user ++ ",r=" ++ client.nonce

/-- The client's first message. -/
def first (client : Client) : String :=
  "n,," ++ client.firstBare

/-- The client's final message without the proof. -/
def finalBare (nonce : List Char) : String :=
  "c=biws,r=" ++ String.ofList nonce

/-- The key under which a client proves that it knows the password. -/
def clientKey (salted : List UInt8) : List UInt8 :=
  Keyed.code salted (Utf8.encode "Client Key")

/-- The key under which a server proves that it knows the password. -/
def serverKey (salted : List UInt8) : List UInt8 :=
  Keyed.code salted (Utf8.encode "Server Key")

/-- The proof over a signed text: the client key, hidden by a signature under its digest. -/
def proof (salted : List UInt8) (signed : String) : List UInt8 :=
  let key := clientKey salted
  Keyed.xor key (Keyed.code (Sha256.hash key) (Utf8.encode signed))

/-- The server's signature over a signed text. -/
def signature (salted : List UInt8) (signed : String) : List UInt8 :=
  Keyed.code (serverKey salted) (Utf8.encode signed)

@[simp]
theorem length_proof (salted : List UInt8) (signed : String) :
    (proof salted signed).length = 32 := by
  simp [proof, clientKey, Keyed.length_xor]

@[simp]
theorem length_signature (salted : List UInt8) (signed : String) :
    (signature salted signed).length = 32 := by
  simp [signature]

/-- The nonce, the salt and the iteration count of a server's first message. -/
def readOffer (client : Client) (message : String) :
    Except ScramFault (List Char × List UInt8 × Nat) := do
  let offer := Offer.ofMessage message.toList
  let some nonce := offer.nonce | throw .nonceMissing
  let some salt := offer.salt | throw .saltMissing
  let some iterations := offer.iterations | throw .iterationsMissing
  if !client.nonce.toList.isPrefixOf nonce || client.nonce.toList = nonce then
    throw .nonceForeign
  match Base64.decode (salt.flatMap Utf8.encodeChar) with
  | .ok salt => pure (nonce, salt, iterations)
  | .error flaw => throw (.salt flaw)

/-- The client's final message in answer to a server's first message.  The client then awaits the
server's final message; one that does not answer stays as it is. -/
def answer (serverFirst : List UInt8) : Answers String := do
  let client ← get
  match Utf8.decode serverFirst with
  | .error flaw => throw (.firstText flaw)
  | .ok message =>
      match client.readOffer message with
      | .error fault => throw fault
      | .ok (nonce, salt, iterations) =>
          let salted := Keyed.derive (Utf8.encode client.password) salt iterations
          let signed := client.firstBare ++ "," ++ message ++ "," ++ finalBare nonce
          set { client with answered := some ⟨salted, signed⟩ }
          pure (finalBare nonce ++ ",p=" ++ Base64.text (proof salted signed))

/-- The signature in base64 that a server's final message holds. -/
def readFinal (message : List Char) : Except ScramFault (List Char) :=
  match message with
  | 'e' :: '=' :: reason => .error (.rejected (String.ofList reason))
  | 'v' :: '=' :: signature => .ok signature
  | _ => .error .finalForm

/-- Check a server's final message against the challenge answered last. -/
def verify (client : Client) (serverFinal : List UInt8) : Except ScramFault Unit :=
  match Utf8.decode serverFinal with
  | .error flaw => .error (.finalText flaw)
  | .ok message => do
      let symbols ← readFinal message.toList
      match Base64.decode (symbols.flatMap Utf8.encodeChar) with
      | .error flaw => throw (.signature flaw)
      | .ok received =>
          match client.answered with
          | none => throw .unanswered
          | some answered =>
              if received = signature answered.salted answered.signed then
                pure ()
              else
                throw .signatureWrong

end Client
end Scram
end SchemaWire
