import SchemaWire.Proofs.Scram.Offer

/-!
# What a client's first message tells

A first message holds a user name and a nonce, with a comma between them.  In the name equals signs
are replaced and then commas, so that no comma is left and every equals sign opens an escape.  Which
name and which nonce were meant can be told from the message alone.
-/

namespace SchemaWire

theorem Base64.text_injective {bytes other : List UInt8}
    (same : Base64.text bytes = Base64.text other) : bytes = other := by
  have symbols : Base64.encode bytes = Base64.encode other := by
    rw [← Base64.encode_text, ← Base64.encode_text, same]
  have read := Base64.decode_encode bytes
  rw [symbols, Base64.decode_encode other] at read
  exact (Except.ok.inj read).symm

namespace Scram

/-! ## Escapes -/

/-- A text with another one in the place of each occurrence of a character. -/
def substitute (char : Char) (other text : List Char) : List Char :=
  text.flatMap fun own => if own = char then other else [own]

/-- A text with the characters that its escapes stand for in their places. -/
def unescape : List Char → List Char
  | '=' :: '2' :: 'C' :: rest => ',' :: unescape rest
  | '=' :: '3' :: 'D' :: rest => '=' :: unescape rest
  | char :: rest => char :: unescape rest
  | [] => []

/-- A text that can stand between commas, and in which equals signs only open escapes. -/
structure Escaped (text : List Char) : Prop where
  /-- No comma is left. -/
  plain : ',' ∉ text
  /-- An equals sign is the first character of an escape. -/
  opens : ∀ front back, text = front ++ '=' :: back →
    "2C".toList <+: back ∨ "3D".toList <+: back

variable {char : Char} {text : List Char}

theorem escapeChar_of_plain (other : char ≠ '=') (plain : char ≠ ',') :
    escapeChar char = [char] := by
  unfold escapeChar
  split
  case h_1 => exact absurd rfl other
  case h_2 => exact absurd rfl plain
  case h_3 => rfl

/-- Equals signs are replaced before commas, so those of the escapes of commas stay. -/
theorem substitute_substitute (text : List Char) :
    substitute ',' "=2C".toList (substitute '=' "=3D".toList text) = text.flatMap escapeChar := by
  rw [substitute, substitute, List.flatMap_assoc]
  refine List.flatMap_congr fun char _ => ?_
  by_cases equals : char = '='
  · subst equals
    rfl
  · by_cases comma : char = ','
    · subst comma
      rfl
    · simp [equals, comma, escapeChar_of_plain equals comma]

/-- In the other order two names are escaped alike. -/
example :
    substitute '=' "=3D".toList (substitute ',' "=2C".toList [',']) =
      substitute '=' "=3D".toList (substitute ',' "=2C".toList "=2C".toList) := by decide

theorem unescape_cons (other : char ≠ '=') (rest : List Char) :
    unescape (char :: rest) = char :: unescape rest := by
  rw [unescape]
  · intro _ same
    exact absurd same other
  · intro _ same
    exact absurd same other

/-- A name is read back from its escaped form. -/
theorem unescape_flatMap (text : List Char) : unescape (text.flatMap escapeChar) = text := by
  induction text with
  | nil => rfl
  | cons char text ih =>
      rw [List.flatMap_cons]
      by_cases equals : char = '='
      · subst equals
        exact congrArg ('=' :: ·) ih
      · by_cases comma : char = ','
        · subst comma
          exact congrArg (',' :: ·) ih
        · rw [escapeChar_of_plain equals comma, List.singleton_append, unescape_cons equals, ih]

theorem escaped_nil : Escaped [] where
  plain := List.not_mem_nil
  opens front back split := by simp at split

/-- An escape before an escaped text. -/
theorem Escaped.escape {first second : Char} (escaped : Escaped text)
    (code : [first, second] = "2C".toList ∨ [first, second] = "3D".toList) :
    Escaped ('=' :: first :: second :: text) where
  plain := by
    have outside : ',' ≠ first ∧ ',' ≠ second := by
      rcases code with code | code <;> cases code <;> decide
    simp [outside, escaped.plain]
  opens front back split := by
    -- The equals sign is that of the new escape, or it stands in the text after it.
    have within : first ≠ '=' ∧ second ≠ '=' := by
      rcases code with code | code <;> cases code <;> decide
    match front, split with
    | [], split =>
        obtain rfl := (List.cons.inj split).2
        rcases code with own | own
        · exact .inl ⟨text, by simp [← own]⟩
        · exact .inr ⟨text, by simp [← own]⟩
    | [_], split => exact absurd (List.cons.inj (List.cons.inj split).2).1 within.1
    | [_, _], split =>
        exact absurd (List.cons.inj (List.cons.inj (List.cons.inj split).2).2).1 within.2
    | _ :: _ :: _ :: front, split =>
        exact escaped.opens front back
          (List.cons.inj (List.cons.inj (List.cons.inj split).2).2).2

/-- Another character before an escaped text. -/
theorem Escaped.cons (escaped : Escaped text) (other : char ≠ '=') (plain : char ≠ ',') :
    Escaped (char :: text) where
  plain := by simp [Ne.symm plain, escaped.plain]
  opens front back split := by
    match front, split with
    | [], split => exact absurd (List.cons.inj split).1 other
    | _ :: front, split => exact escaped.opens front back (List.cons.inj split).2

theorem escaped_flatMap (text : List Char) : Escaped (text.flatMap escapeChar) := by
  induction text with
  | nil => exact escaped_nil
  | cons char text ih =>
      rw [List.flatMap_cons]
      by_cases equals : char = '='
      · subst equals
        exact ih.escape (.inr rfl)
      · by_cases comma : char = ','
        · subst comma
          exact ih.escape (.inl rfl)
        · rw [escapeChar_of_plain equals comma]
          exact ih.cons equals comma

/-! ## First messages -/

/-- What stands before the first comma, and what stands after it. -/
theorem eq_of_append_comma {front other back rest : List Char} (plain : ',' ∉ front)
    (plainToo : ',' ∉ other) (same : front ++ ',' :: back = other ++ ',' :: rest) :
    front = other ∧ back = rest := by
  -- Whichever part is the longer one, the rest of it would begin with the other's comma.
  rcases List.append_eq_append_iff.1 same with ⟨more, whole, rest⟩ | ⟨more, whole, rest⟩
  · cases more with
    | nil => exact ⟨by simpa using whole.symm, by simpa using rest⟩
    | cons char more =>
        obtain ⟨rfl, -⟩ := List.cons.inj rest
        rw [whole] at plainToo
        exact absurd (List.mem_append_right front List.mem_cons_self) plainToo
  · cases more with
    | nil => exact ⟨by simpa using whole, by simpa using rest.symm⟩
    | cons char more =>
        obtain ⟨rfl, -⟩ := List.cons.inj rest
        rw [whole] at plain
        exact absurd (List.mem_append_right other List.mem_cons_self) plain

namespace Client

theorem first_ofNonce (user password nonce : String) :
    (ofNonce user password nonce).first.toList =
      "n,,n=".toList ++
        (user.toList.flatMap escapeChar ++ ',' :: ("r=".toList ++ nonce.toList)) := by
  simp [first, firstBare, ofNonce, escape]

/-- Clients say the same at first only if they have the same user and the same nonce. -/
theorem first_eq_iff {user password nonce other secret source : String} :
    (ofNonce other secret source).first = (ofNonce user password nonce).first ↔
      other = user ∧ source = nonce := by
  constructor
  · intro same
    have told := congrArg String.toList same
    rw [first_ofNonce, first_ofNonce, List.append_cancel_left_eq] at told
    obtain ⟨names, nonces⟩ := eq_of_append_comma (escaped_flatMap other.toList).plain
      (escaped_flatMap user.toList).plain told
    have users := congrArg unescape names
    rw [unescape_flatMap, unescape_flatMap] at users
    exact ⟨String.toList_inj.1 users, String.toList_inj.1 (List.append_cancel_left nonces)⟩
  · rintro ⟨rfl, rfl⟩
    rfl

/-- A first message holds the user name, of which equals signs and then commas have been replaced,
and the nonce that the random bytes spell.  The name so escaped holds no comma and no other equals
signs than those that open escapes, and is read back by undoing these.  Clients with another user or
other random bytes say something else. -/
theorem first_unambiguous (user password : String) (random : List UInt8) :
    (∃ escaped : String,
      (ofRandom user password random).first =
          "n,,n=" ++ escaped ++ ",r=" ++ Base64.text random ∧
        escaped.toList =
          substitute ',' "=2C".toList (substitute '=' "=3D".toList user.toList) ∧
        Escaped escaped.toList ∧ unescape escaped.toList = user.toList) ∧
    ∀ other secret source,
      (ofRandom other secret source).first = (ofRandom user password random).first ↔
        other = user ∧ source = random := by
  refine ⟨⟨escape user, ?_, ?_, ?_, ?_⟩, ?_⟩
  · apply String.toList_inj.1
    simp [ofRandom, first_ofNonce, escape]
  · rw [substitute_substitute, escape, String.toList_ofList]
  · rw [escape, String.toList_ofList]
    exact escaped_flatMap user.toList
  · rw [escape, String.toList_ofList, unescape_flatMap]
  · intro other secret source
    rw [ofRandom, ofRandom, first_eq_iff]
    refine and_congr_right ?_
    intro _
    exact ⟨Base64.text_injective, congrArg Base64.text⟩

end Client
end Scram
end SchemaWire
