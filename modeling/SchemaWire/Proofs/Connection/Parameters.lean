import SchemaWire.Proofs.Connection.Retention
import Mathlib.Data.List.Nodup

/-!
# The parameters of a server

A server tells its parameters while it describes the session, and may change them once the
connection is ready.  What it tells at first is kept in full and in order; what it tells later takes
the place of the first value under the same name.  So a connection has one value for each name, and
that the latest, just as long as no name was told twice before the connection was ready.
-/

namespace SchemaWire
namespace Connection

variable {before after : Connection} {event : Event} {name : String} {value : List UInt8}
  {parameters early late : List (String × List UInt8)}

/-! ## Values under names -/

theorem map_fst_putParameter (name : String) (value : List UInt8)
    (parameters : List (String × List UInt8)) :
    (putParameter name value parameters).map Prod.fst =
      if name ∈ parameters.map Prod.fst then parameters.map Prod.fst
      else parameters.map Prod.fst ++ [name] := by
  induction parameters with
  | nil => rfl
  | cons entry rest ih =>
      rw [putParameter]
      by_cases found : entry.1 = name
      · simp [found]
      · rw [if_neg found, List.map_cons, ih, List.map_cons]
        simp only [List.mem_cons, Ne.symm found, false_or]
        split
        case isTrue => rfl
        case isFalse => rfl

theorem nodup_putParameter :
    ((putParameter name value parameters).map Prod.fst).Nodup ↔
      (parameters.map Prod.fst).Nodup := by
  rw [map_fst_putParameter]
  split
  case isTrue => rfl
  case isFalse absent =>
    rw [← List.concat_eq_append, List.nodup_concat]
    exact and_iff_right absent

/-- Put values in the place of others under their names, one after the other. -/
def putAll (parameters late : List (String × List UInt8)) : List (String × List UInt8) :=
  late.foldl (fun parameters entry => putParameter entry.1 entry.2 parameters) parameters

@[simp]
theorem putAll_cons (parameters late : List (String × List UInt8)) (entry : String × List UInt8) :
    putAll parameters (entry :: late) = putAll (putParameter entry.1 entry.2 parameters) late := rfl

theorem nodup_putAll :
    ((putAll parameters late).map Prod.fst).Nodup ↔ (parameters.map Prod.fst).Nodup := by
  induction late generalizing parameters with
  | nil => rfl
  | cons entry late ih => rw [putAll_cons, ih, nodup_putParameter]

/-- The last value put under a name is found there, or else what was there before. -/
theorem lookup_putAll (name : String) (parameters late : List (String × List UInt8)) :
    (putAll parameters late).lookup name =
      (late.reverse.lookup name).or (parameters.lookup name) := by
  induction late generalizing parameters with
  | nil => rfl
  | cons entry late ih =>
      obtain ⟨key, value⟩ := entry
      rw [putAll_cons, ih, lookup_putParameter, List.reverse_cons, List.lookup_append,
        Option.or_assoc]
      congr 1
      by_cases same : name = key
      · simp [same]
      · simp [same, List.lookup_cons, beq_false_of_ne same]

/-- Among distinct names, the first value under a name is the last one. -/
theorem lookup_reverse (distinct : (parameters.map Prod.fst).Nodup) (name : String) :
    parameters.reverse.lookup name = parameters.lookup name := by
  induction parameters with
  | nil => rfl
  | cons entry rest ih =>
      obtain ⟨key, value⟩ := entry
      obtain ⟨absent, distinct⟩ := List.nodup_cons.1 distinct
      rw [List.reverse_cons, List.lookup_append, ih distinct]
      by_cases same : name = key
      · subst same
        have missing : rest.lookup name = none := by
          rw [List.lookup_eq_none_iff]
          intro other member
          rw [bne_iff_ne]
          intro same
          exact absent (List.mem_map.2 ⟨other, member, same.symm⟩)
        simp [missing]
      · simp [List.lookup_cons, beq_false_of_ne same]

/-! ## What a server tells -/

/-- The parameter that an event tells a connection, with the phase in which it is accepted. -/
def heard? (connection : Connection) : Event → Option (ConnectionPhase × String × List UInt8)
  | .call (.step frame) =>
      match (connection.apply (.step frame)).1, frame.readAs ParameterStatus.format with
      | .ok _, .ok message => some (connection.phase, message.name, message.value)
      | _, _ => none
  | _ => none

/-- The parameters that a connection accepts amid events, in turn, each with the phase in which it
is accepted. -/
def heard (connection : Connection) : List Event → List (ConnectionPhase × String × List UInt8)
  | [] => []
  | event :: events =>
      (connection.heard? event).toList ++ (connection.occur event).heard events

/-- The parameters among those accepted that were accepted in a phase. -/
def toldIn (phase : ConnectionPhase) (heard : List (ConnectionPhase × String × List UInt8)) :
    List (String × List UInt8) :=
  (heard.filter (·.1 = phase)).map Prod.snd

@[simp]
theorem toldIn_cons (phase : ConnectionPhase) (entry : ConnectionPhase × String × List UInt8)
    (heard : List (ConnectionPhase × String × List UInt8)) :
    toldIn phase (entry :: heard) =
      if entry.1 = phase then entry.2 :: toldIn phase heard else toldIn phase heard := by
  by_cases same : entry.1 = phase <;> simp [toldIn, same]

/-- What an event makes of the parameters: they stay, or have another at their end as long as the
session is described, or have a value put among them once the connection is ready. -/
inductive Records (before after : Connection) :
    Option (ConnectionPhase × String × List UInt8) → Prop where
  | silent (same : after.parameters = before.parameters) : Records before after none
  | noted {entry : String × List UInt8} (phase : before.phase = .waitingReady)
      (kept : after.parameters = before.parameters ++ [entry]) :
      Records before after (some (.waitingReady, entry))
  | changed {entry : String × List UInt8} (phase : before.phase = .ready)
      (put : after.parameters = putParameter entry.1 entry.2 before.parameters) :
      Records before after (some (.ready, entry))

theorem heard?_of_ne_ok {call : Call} (refused : ∀ action, (before.apply call).1 ≠ .ok action) :
    before.heard? (.call call) = none := by
  cases call with
  | start => rfl
  | step frame =>
      rw [heard?]
      split
      case h_1 action _ accepted _ => exact absurd accepted (refused action)
      case h_2 => rfl

theorem records_of_accepts {frame : Frame} {action : Action}
    (accepted : Accepts before frame action after) :
    Records before after (before.heard? (.call (.step frame))) := by
  have answered : (before.apply (.step frame)).1 = .ok action := by
    rw [apply_step_eq_ok.2 accepted]
  have unheard {α : Type} {format : Format α} {message : α}
      (read : frame.readAs format = .ok message)
      (other : format.opcode ≠ ParameterStatus.format.opcode) :
      before.heard? (.call (.step frame)) = none := by
    rw [heard?, Frame.readAs, if_neg (opcode_ne_of_readAs read other), answered]
  cases accepted with
  | told phase read =>
      rw [heard?, answered, read, phase]
      exact .noted phase rfl
  | changed phase read =>
      rw [heard?, answered, read, phase]
      exact .changed phase rfl
  | notice read | agreed _ read | trusted _ read | begun _ read | challenged _ read
  | verified _ read | authenticated _ read | keyed _ read | described _ read | readied _ read =>
      rw [unheard read (by decide)]
      exact .silent rfl

theorem parameters_of_stops {fault : Fault} (stops : Stops before fault after) :
    after.parameters = before.parameters := by
  cases stops <;> rfl

theorem records_occur (before : Connection) (event : Event) :
    Records before (before.occur event) (before.heard? event) := by
  cases event with
  | others cache => exact .silent rfl
  | call call =>
      rw [occur]
      generalize answered : (before.apply call).1 = answer
      have follows := follows_apply before call
      rw [answered] at follows
      generalize (before.apply call).2 = after at follows
      cases follows with
      | opened => exact .silent rfl
      | unopened =>
          rw [heard?_of_ne_ok (by simp [answered])]
          exact .silent rfl
      | accepted accepted => exact records_of_accepts accepted
      | refused =>
          rw [heard?_of_ne_ok (by simp [answered])]
          exact .silent rfl
      | @givenUp _ _ middle stops =>
          rw [heard?_of_ne_ok (by simp [answered])]
          have same : middle.fail.parameters = middle.parameters := rfl
          exact .silent (same.trans (parameters_of_stops stops))

/-! ## Runs -/

/-- Once the session has been described, no more parameters are told as part of that. -/
theorem toldIn_of_closed (closed : before.Closed) (events : List Event) :
    toldIn .waitingReady (before.heard events) = [] := by
  induction events generalizing before with
  | nil => rfl
  | cons event events ih =>
      have later := ih (lasts_occur closed event).2
      have records := records_occur before event
      rw [heard]
      generalize before.heard? event = entry at records ⊢
      cases records with
      | silent => simpa using later
      | noted phase => exact absurd phase (closed.ne (by decide) (by decide))
      | changed => simpa using later

/-- The parameters are those told during the description of the session, with those told later put
in their places; and nothing else was told, nor in another order. -/
theorem parameters_amid (before : Connection) (events : List Event) :
    let early := toldIn .waitingReady (before.heard events)
    let late := toldIn .ready (before.heard events)
    (before.amid events).parameters = putAll (before.parameters ++ early) late ∧
      (before.heard events).map Prod.snd = early ++ late := by
  induction events generalizing before with
  | nil => exact ⟨(List.append_nil _).symm, rfl⟩
  | cons event events ih =>
      obtain ⟨held, ordered⟩ := ih (before.occur event)
      have records := records_occur before event
      rw [amid_cons, heard]
      generalize before.heard? event = entry at records ⊢
      cases records with
      | silent same =>
          rw [same] at held
          exact ⟨held, ordered⟩
      | noted phase kept =>
          rw [kept, List.append_assoc] at held
          exact ⟨by simpa using held, by simpa using ordered⟩
      | changed phase put =>
          have ended := toldIn_of_closed (lasts_occur (.inl phase) event).2 events
          rw [ended] at held ordered
          rw [put] at held
          exact ⟨by simpa [ended] using held, by simpa [ended] using ordered⟩

/-- A connection holds at most one value under each name, and under every name that it was told the
value that it was told last, if and only if no name was told twice before the connection was ready.
In any case the value told last once the connection was ready comes first under its name, and where
there is none the value that was told first. -/
theorem parameters_latest_iff (settings : Settings) (random : List UInt8) (cache : Cache)
    (events : List Event) :
    let start := new settings random cache
    let parameters := (start.amid events).parameters
    let told := (start.heard events).map Prod.snd
    let early := toldIn .waitingReady (start.heard events)
    let late := toldIn .ready (start.heard events)
    ((parameters.map Prod.fst).Nodup ∧
        (∀ name, parameters.lookup name = told.reverse.lookup name) ↔
      (early.map Prod.fst).Nodup) ∧
    ∀ name, parameters.lookup name = (late.reverse.lookup name).or (early.lookup name) := by
  intro start parameters told early late
  obtain ⟨held, ordered⟩ : parameters = putAll early late ∧ told = early ++ late :=
    parameters_amid start events
  have found (name : String) :
      parameters.lookup name = (late.reverse.lookup name).or (early.lookup name) := by
    rw [held, lookup_putAll]
  refine ⟨?_, found⟩
  constructor
  · rintro ⟨distinct, -⟩
    rwa [held, nodup_putAll] at distinct
  · intro distinct
    constructor
    · rwa [held, nodup_putAll]
    · intro name
      rw [found, ordered, List.reverse_append, List.lookup_append, lookup_reverse distinct]

/-- A name that is told twice while the session is described has two entries, and the first of them
stays with the value that was told first. -/
theorem not_parameters_latest_of_repeated :
    let told (value : UInt8) : Event :=
      .call (.step ⟨0x53, [0, 0, 0, 1, 110, 0, 0, 0, 1, value]⟩)
    let start := new {} (List.replicate 24 0) .empty
    let events := [.call .start, .call (.step ⟨0x52, [0, 0, 0, 0]⟩), told 97, told 98]
    (start.amid events).parameters = [("n", [97]), ("n", [98])] ∧
      ¬ (((start.amid events).parameters.map Prod.fst).Nodup ∧ ∀ name,
        (start.amid events).parameters.lookup name =
          ((start.heard events).map Prod.snd).reverse.lookup name) := by
  intro told start events
  have repeated : toldIn .waitingReady (start.heard events) = [("n", [97]), ("n", [98])] := by
    decide
  refine ⟨by decide, ?_⟩
  intro latest
  have distinct := (parameters_latest_iff {} (List.replicate 24 0) .empty events).1.1 latest
  rw [repeated] at distinct
  simp at distinct

end Connection
end SchemaWire
