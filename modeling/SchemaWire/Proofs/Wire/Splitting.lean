import SchemaWire.Frame

/-!
# Frames whatever the pieces

Bytes arrive in pieces, and a receiver may ask for frames at any time in between.  Frames that are
asked for until there is none are those of the bytes received, however these were cut:

`frames split off ++ bytes that stay = bytes received`

holds after every call, and the bytes that stay are the same as if all had arrived at once.
-/

namespace SchemaWire
namespace Inbox

/-- What a receiver does with an inbox. -/
inductive Call where
  /-- Take in bytes. -/
  | extend (bytes : List UInt8)
  /-- Ask for a frame. -/
  | next
  deriving DecidableEq, Repr

/-- What a receiver is told that asks for a frame. -/
abbrev Answer := Except Fault (Option Frame)

/-- The answer to a receiver that asks for a frame, and what becomes of the inbox. -/
def receive (inbox : Inbox) : Answer × Inbox :=
  match inbox.next with
  | .ok (some (frame, rest)) => (.ok (some frame), rest)
  | .ok none => (.ok none, inbox)
  | .error fault => (.error fault, inbox)

/-- The answers to calls in turn, and what becomes of the inbox. -/
def run (inbox : Inbox) : List Call → List Answer × Inbox
  | [] => ([], inbox)
  | .extend bytes :: calls => (inbox.extend bytes).run calls
  | .next :: calls =>
      let (answer, rest) := inbox.receive
      let (answers, left) := rest.run calls
      (answer :: answers, left)

/-- The bytes that calls bring. -/
def received : List Call → List UInt8
  | [] => []
  | .extend bytes :: calls => bytes ++ received calls
  | .next :: calls => received calls

/-- The frames among answers. -/
def frames : List Answer → List Frame
  | [] => []
  | .ok (some frame) :: answers => frame :: frames answers
  | _ :: answers => frames answers

/-- No frame can be split off. -/
def Spent (inbox : Inbox) : Prop :=
  ∀ frame rest, inbox.next ≠ .ok (some (frame, rest))

variable {inbox rest : Inbox} {frame : Frame} {fault : Fault}

@[simp]
theorem bytes_extend (bytes : List UInt8) : (inbox.extend bytes).bytes = inbox.bytes ++ bytes :=
  rfl

@[simp]
theorem limit_extend (bytes : List UInt8) : (inbox.extend bytes).limit = inbox.limit :=
  rfl

@[simp]
theorem extend_nil : inbox.extend [] = inbox := by
  simp [extend]

@[simp]
theorem extend_extend (front back : List UInt8) :
    (inbox.extend front).extend back = inbox.extend (front ++ back) := by
  simp [extend]

/-! ## What a further byte changes -/

theorem next_of_bytes {opcode a b c d : UInt8} {tail : List UInt8}
    (full : inbox.bytes = opcode :: a :: b :: c :: d :: tail) :
    inbox.next =
      match frameLength inbox.limit opcode [a, b, c, d] with
      | .error fault => .error fault
      | .ok length =>
          if length - 4 ≤ tail.length then
            .ok (some (⟨opcode, tail.take (length - 4)⟩,
              { inbox with bytes := tail.drop (length - 4) }))
          else
            .ok none := by
  simp only [next, full, pass_eq]
  cases frameLength inbox.limit opcode [a, b, c, d] with
  | error fault => rfl
  | ok length =>
      by_cases enough : length - 4 ≤ tail.length
      · simp only [if_pos enough, List.append_nil, List.reverse_reverse]
      · simp only [if_neg enough]

theorem bytes_of_next_ne (asked : inbox.next ≠ .ok none) :
    ∃ opcode a b c d tail, inbox.bytes = opcode :: a :: b :: c :: d :: tail := by
  rw [next] at asked
  split at asked
  case h_1 opcode a b c d tail full => exact ⟨opcode, a, b, c, d, tail, full⟩
  case h_2 => exact absurd rfl asked

/-- A length that no frame may have stays in the way, whatever follows it. -/
theorem next_extend_of_error (refused : inbox.next = .error fault) (bytes : List UInt8) :
    (inbox.extend bytes).next = .error fault := by
  obtain ⟨opcode, a, b, c, d, tail, full⟩ := @bytes_of_next_ne inbox (by simp [refused])
  have longer : (inbox.extend bytes).bytes = opcode :: a :: b :: c :: d :: (tail ++ bytes) := by
    simp [full]
  rw [next_of_bytes full] at refused
  rw [next_of_bytes longer]
  cases declared : frameLength inbox.limit opcode [a, b, c, d] with
  | error cause => simpa [declared] using refused
  | ok length =>
      simp only [declared] at refused
      split at refused <;> simp at refused

/-- A frame that can be split off is the first one whatever follows. -/
theorem next_extend_of_some (split : inbox.next = .ok (some (frame, rest))) (bytes : List UInt8) :
    (inbox.extend bytes).next = .ok (some (frame, rest.extend bytes)) := by
  obtain ⟨opcode, a, b, c, d, tail, full⟩ := @bytes_of_next_ne inbox (by simp [split])
  have longer : (inbox.extend bytes).bytes = opcode :: a :: b :: c :: d :: (tail ++ bytes) := by
    simp [full]
  rw [next_of_bytes full] at split
  rw [next_of_bytes longer]
  cases declared : frameLength inbox.limit opcode [a, b, c, d] with
  | error cause => simp [declared] at split
  | ok length =>
      simp only [declared] at split
      split at split
      case isFalse => simp at split
      case isTrue enough =>
        have still : length - 4 ≤ (tail ++ bytes).length := by
          rw [List.length_append]
          omega
        simp only [Except.ok.injEq, Option.some.injEq, Prod.mk.injEq] at split
        obtain ⟨rfl, rfl⟩ := split
        rw [limit_extend, declared]
        simp only [if_pos still, List.take_append_of_le_length enough,
          List.drop_append_of_le_length enough]
        rfl

/-! ## Answers -/

theorem receive_of_some (split : inbox.next = .ok (some (frame, rest))) :
    inbox.receive = (.ok (some frame), rest) := by
  rw [receive, split]

theorem receive_of_error (refused : inbox.next = .error fault) :
    inbox.receive = (.error fault, inbox) := by
  rw [receive, refused]

theorem next_of_receive (refused : inbox.receive.1 = .error fault) :
    inbox.next = .error fault := by
  rw [receive] at refused
  split at refused
  case h_1 => simp at refused
  case h_2 => simp at refused
  case h_3 cause asked => rwa [Except.error.inj refused] at asked

/-- An inbox either gives a frame or stays as it is and gives none. -/
theorem receive_cases (inbox : Inbox) :
    (∃ frame rest, inbox.next = .ok (some (frame, rest)) ∧
      inbox.receive = (.ok (some frame), rest)) ∨
    ∃ answer : Answer, inbox.Spent ∧ inbox.receive = (answer, inbox) ∧
      ∀ answers, frames (answer :: answers) = frames answers := by
  cases asked : inbox.next with
  | error fault =>
      have spent : inbox.Spent := by simp [Spent, asked]
      refine .inr ⟨.error fault, spent, receive_of_error asked, ?_⟩
      intro answers
      rfl
  | ok found =>
      cases found with
      | none =>
          have spent : inbox.Spent := by simp [Spent, asked]
          refine .inr ⟨.ok none, spent, ?_, ?_⟩
          · rw [receive, asked]
          · intro answers
            rfl
      | some found => exact .inl ⟨found.1, found.2, rfl, receive_of_some asked⟩

theorem receive_of_spent (spent : inbox.Spent) : inbox.receive.2 = inbox := by
  rcases inbox.receive_cases with ⟨frame, rest, split, -⟩ | ⟨answer, -, told, -⟩
  · exact absurd split (spent frame rest)
  · rw [told]

theorem run_next (calls : List Call) :
    inbox.run (.next :: calls) =
      (inbox.receive.1 :: (inbox.receive.2.run calls).1, (inbox.receive.2.run calls).2) :=
  rfl

/-! ## Runs -/

/-- The frames split off and the bytes that stay are the bytes that were there or came in. -/
theorem bytes_run (inbox : Inbox) (calls : List Call) :
    (frames (inbox.run calls).1).flatMap Frame.bytes ++ (inbox.run calls).2.bytes =
      inbox.bytes ++ received calls := by
  induction calls generalizing inbox with
  | nil => simp [run, frames, received]
  | cons call calls ih =>
      cases call with
      | extend bytes =>
          calc
            _ = (inbox.extend bytes).bytes ++ received calls := by rw [run, ih]
            _ = inbox.bytes ++ (bytes ++ received calls) := by
              rw [bytes_extend, List.append_assoc]
      | next =>
          rw [run_next, received]
          rcases inbox.receive_cases with ⟨frame, rest, split, told⟩ | ⟨answer, -, told, silent⟩
          · simp only [told, frames, List.flatMap_cons, List.append_assoc]
            rw [ih, (bytes_of_next split).1, List.append_assoc]
          · simp only [told, silent]
            exact ih inbox

/-- Asking often enough leaves an inbox from which no frame can be split off. -/
theorem exists_spent (inbox : Inbox) :
    ∃ count, (inbox.run (List.replicate count .next)).2.Spent := by
  generalize size : inbox.bytes.length = length
  induction length using Nat.strongRecOn generalizing inbox with
  | ind length ih =>
      rcases inbox.receive_cases with ⟨frame, rest, split, told⟩ | ⟨answer, spent, -, -⟩
      · have shorter := length_lt_of_next split
        rw [size] at shorter
        obtain ⟨count, spent⟩ := ih _ shorter rest rfl
        refine ⟨count + 1, ?_⟩
        rw [List.replicate_succ, run_next, told]
        exact spent
      · exact ⟨0, spent⟩

/-- If the calls leave nothing to split off, they have split off the frames that are there when all
bytes come in before the first of them is asked for. -/
theorem run_at_once (inbox : Inbox) (calls : List Call) (spent : (inbox.run calls).2.Spent) :
    (inbox.extend (received calls)).run
        (List.replicate ((frames (inbox.run calls).1).length + 1) .next) =
      ((frames (inbox.run calls).1).map (fun frame => .ok (some frame)) ++
        [(inbox.run calls).2.receive.1], (inbox.run calls).2) := by
  induction calls generalizing inbox with
  | nil =>
      have stays := receive_of_spent spent
      simpa [run, received, frames] using stays
  | cons call calls ih =>
      cases call with
      | extend bytes =>
          have later := ih (inbox.extend bytes) spent
          rwa [extend_extend] at later
      | next =>
          rw [run_next] at spent ⊢
          rcases inbox.receive_cases with ⟨frame, rest, split, told⟩ | ⟨answer, -, told, silent⟩
          · simp only [told] at spent ⊢
            have first := receive_of_some (next_extend_of_some split (received calls))
            rw [received, frames, List.length_cons, List.replicate_succ, run_next, first,
              ih rest spent]
            rfl
          · simp only [told, silent] at spent ⊢
            exact ih inbox spent

/-- A length that no frame may have is the answer to every later call, and no byte is lost. -/
theorem run_of_error (refused : inbox.next = .error fault) (later : List Call) :
    (inbox.run later).2 = inbox.extend (received later) ∧
      ∀ answer ∈ (inbox.run later).1, answer = .error fault := by
  induction later generalizing inbox with
  | nil => simp [run, received]
  | cons call calls ih =>
      cases call with
      | extend bytes =>
          have rest := ih (next_extend_of_error refused bytes)
          rwa [extend_extend] at rest
      | next =>
          obtain ⟨left, told⟩ := ih refused
          rw [run_next, receive_of_error refused]
          refine ⟨left, ?_⟩
          intro answer member
          rcases List.mem_cons.1 member with rfl | member
          · rfl
          · exact told answer member

/-- Whatever the pieces in which bytes come in and whenever frames are asked for: no byte is lost;
asking on comes to an end; the frames split off by then, the bytes that stay and the last answer
are those of asking only after all bytes have come in at once; and a refused length leaves the
inbox as it is and is refused from then on, whatever comes in. -/
theorem frames_independent_of_pieces {limit : Nat} {calls : List Call} {answers : List Answer}
    {left : Inbox} (ran : (empty limit).run calls = (answers, left)) :
    (frames answers).flatMap Frame.bytes ++ left.bytes = received calls ∧
      (∃ count, (left.run (List.replicate count .next)).2.Spent) ∧
      (left.Spent →
        (empty limit).run
            (.extend (received calls) :: List.replicate ((frames answers).length + 1) .next) =
          ((frames answers).map (fun frame => .ok (some frame)) ++ [left.receive.1], left)) ∧
      ∀ fault, left.receive.1 = .error fault →
        left.receive.2 = left ∧
          ∀ later, (left.run later).2 = left.extend (received later) ∧
            ∀ answer ∈ (left.run later).1, answer = .error fault := by
  have conserved := bytes_run (empty limit) calls
  have atOnce := run_at_once (empty limit) calls
  rw [ran] at conserved atOnce
  refine ⟨conserved, left.exists_spent, atOnce, ?_⟩
  intro fault failed
  rcases left.receive_cases with ⟨frame, rest, -, told⟩ | ⟨answer, spent, -, -⟩
  · simp [told] at failed
  · exact ⟨receive_of_spent spent, run_of_error (next_of_receive failed)⟩

/-- A frame that comes in two pieces, the second with a length above a limit of sixteen. -/
def piecesSample : List Call :=
  [.extend [0x5A, 0, 0], .next, .extend [0, 5, 7, 0x44, 0, 0, 1, 0], .next]

theorem frames_independent_of_pieces_sample :
    (empty 16).run piecesSample = ([.ok none, .ok (some ⟨0x5A, [7]⟩)], ⟨[0x44, 0, 0, 1, 0], 16⟩) ∧
      (empty 16).run [.extend [0x5A, 0, 0, 0, 5, 7, 0x44, 0, 0, 1, 0], .next, .next] =
        ([.ok (some ⟨0x5A, [7]⟩), .error (.framing (.frameLimit 0x44 256 16))],
          ⟨[0x44, 0, 0, 1, 0], 16⟩) ∧
      ∀ later, ∀ answer ∈ (run ⟨[0x44, 0, 0, 1, 0], 16⟩ later).1,
        answer = .error (.framing (.frameLimit 0x44 256 16)) := by
  have ran : (empty 16).run piecesSample =
      ([.ok none, .ok (some ⟨0x5A, [7]⟩)], ⟨[0x44, 0, 0, 1, 0], 16⟩) := rfl
  have refused : Inbox.next ⟨[0x44, 0, 0, 1, 0], 16⟩ =
      .error (.framing (.frameLimit 0x44 256 16)) := rfl
  have spent : Spent ⟨[0x44, 0, 0, 1, 0], 16⟩ := by simp [Spent, refused]
  obtain ⟨-, -, atOnce, stuck⟩ := frames_independent_of_pieces ran
  refine ⟨ran, atOnce spent, ?_⟩
  intro later
  exact ((stuck _ rfl).2 later).2

end Inbox
end SchemaWire
