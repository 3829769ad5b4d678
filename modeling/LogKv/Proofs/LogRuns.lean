import LogKv.Proofs.LogRecord

/-! Runs of a log engine. Whatever happens to an engine, in whatever order, is an
event; a run keeps the engine together with what its users have seen of it, the
accepted submissions and the results of waiting. Over any state machine, entries
are applied once each and in the order of their submission, and whoever waits
for one gets its own response. -/
namespace LogKv.Engine

variable {σ : Type}

/-- Something that happens to an engine or is done with it. -/
inductive Event where
  | incident (incident : Incident)
  | submit (data : Bytes)
  /-- A wait for the entry at an index ends: with what has come back, or with its deadline. -/
  | wait (index : Nat) (timeout : Duration)
  deriving DecidableEq, Repr

/-- What a wait ended with, and how far the log was applied at that moment. -/
structure Answer where
  index : Nat
  result : LogResult
  appliedIndex : Nat

/-- A result came only after its entry was applied, and is the response to that entry. -/
def Answer.Right (machine : StateMachine σ) (start : σ) (log : List Proposal) (answer : Answer) :
    Prop :=
  ∀ response, answer.result = .ok response →
    answer.index ≤ answer.appliedIndex ∧
    ∃ p ∈ log, p.index = answer.index ∧ machine.Responds start log p response

/-- Entries that are accepted later do not change the response to an earlier one. -/
theorem Answer.Right.extend {machine : StateMachine σ} {start : σ} {log more : List Proposal}
    {answer : Answer} (numbered : Numbered log) (right : answer.Right machine start log)
    (longer : log <+: more) : answer.Right machine start more := by
  intro response result
  obtain ⟨applied, p, member, index, before, s, t, replays, log', responds⟩ := right response result
  obtain ⟨-, bound, -⟩ := numbered.at_index member
  obtain ⟨rest, rfl⟩ := longer
  refine ⟨applied, p, List.mem_append_left _ member, index, before, s, t, replays, ?_, responds⟩
  rw [log', List.take_append_of_le_length (by omega)]

/-- An engine and what its users have seen of it. -/
structure Run (σ : Type) where
  engine : Engine σ
  /-- The accepted submissions in order: the index each was given, the term it was accepted in
  and its data. -/
  accepted : List Proposal
  answers : List Answer

namespace Run

/-- The run of a new engine in which nothing has happened yet. -/
def start (id address : String) (state : σ) : Run σ := ⟨.start id address state, [], []⟩

/-- One more event. -/
def step (machine : StateMachine σ) (r : Run σ) : Event → Run σ
  | .incident incident => { r with engine := incident.apply machine r.engine }
  | .submit data =>
    match r.engine.submit data with
    | (.accepted index, engine) =>
      { r with engine := engine, accepted := r.accepted ++ [⟨index, r.engine.term, data⟩] }
    | (.refused _, engine) => { r with engine := engine }
  | .wait index timeout =>
    let result := (r.engine.delivery index).afterWaiting timeout
    { r with answers := r.answers ++ [⟨index, result, r.engine.appliedIndex⟩] }

/-- The run after these events. -/
def after (machine : StateMachine σ) (r : Run σ) (events : List Event) : Run σ :=
  events.foldl (step machine) r

@[simp] theorem after_nil (machine : StateMachine σ) (r : Run σ) : r.after machine [] = r := rfl

@[simp] theorem after_cons (machine : StateMachine σ) (r : Run σ) (event : Event)
    (events : List Event) :
    r.after machine (event :: events) = (r.step machine event).after machine events := rfl

theorem after_append (machine : StateMachine σ) (r : Run σ) (first second : List Event) :
    r.after machine (first ++ second) = (r.after machine first).after machine second :=
  List.foldl_append

/-! ## Runs only go forward -/

variable {machine : StateMachine σ} {state : σ}

/-- The later run has all that the earlier one has, and a dead worker accepts nothing more. -/
structure Forward (r r' : Run σ) : Prop where
  accepted : r.accepted <+: r'.accepted
  later : Later r.engine r'.engine
  dead : r.engine.working = false → r'.accepted = r.accepted

theorem Forward.refl (r : Run σ) : Forward r r := ⟨List.prefix_rfl, .refl r.engine, fun _ => rfl⟩

theorem Forward.trans {r r' r'' : Run σ} (first : Forward r r') (second : Forward r' r'') :
    Forward r r'' where
  accepted := first.accepted.trans second.accepted
  later := first.later.trans second.later
  dead dead := (second.dead (first.later.dead dead).1).trans (first.dead dead)

theorem forward_step (machine : StateMachine σ) (r : Run σ) (event : Event) :
    Forward r (r.step machine event) := by
  cases event with
  | incident incident =>
    exact ⟨List.prefix_rfl, later_incident machine incident r.engine, fun _ => rfl⟩
  | submit data =>
    have later := later_submit data r.engine
    simp only [step]
    rcases submit_cases r.engine data with ⟨fault, refused⟩ | opened
    · rw [refused]
      exact .refl r
    · rw [submit_of_open opened] at later ⊢
      refine ⟨List.prefix_append _ _, later, fun dead => ?_⟩
      rw [opened.working] at dead
      cases dead
  | wait index timeout => exact ⟨List.prefix_rfl, .refl r.engine, fun _ => rfl⟩

theorem forward_after (machine : StateMachine σ) (r : Run σ) (events : List Event) :
    Forward r (r.after machine events) := by
  induction events generalizing r with
  | nil => exact .refl r
  | cons event events ih => exact (forward_step machine r event).trans (ih _)

/-! ## Runs keep the record -/

/-- The engine keeps its record of the accepted entries, and no wait was told anything wrong. -/
structure Sound (machine : StateMachine σ) (state : σ) (r : Run σ) : Prop where
  record : Recorded machine state r.accepted r.engine
  right : ∀ answer ∈ r.answers, answer.Right machine state r.accepted

theorem sound_start (machine : StateMachine σ) (id address : String) (state : σ) :
    Sound machine state (start id address state) :=
  ⟨recorded_start machine id address state, by simp [start]⟩

/-- A wait that ends now is told the truth. -/
theorem right_now {log : List Proposal} {e : Engine σ} (record : Recorded machine state log e)
    (index : Nat) (timeout : Duration) :
    Answer.Right machine state log
      ⟨index, (e.delivery index).afterWaiting timeout, e.appliedIndex⟩ := by
  intro response result
  obtain ⟨call, member, rfl, rfl⟩ := record.ordered.delivery_ok result
  have accepted : call.proposal ∈ log := by
    rw [← record.log]
    exact List.mem_append_left _ (List.mem_map_of_mem member)
  exact ⟨record.applied_index_le member, call.proposal, accepted, rfl, record.responds member⟩

theorem sound_step {r : Run σ} (sound : Sound machine state r) (event : Event) :
    Sound machine state (r.step machine event) := by
  obtain ⟨record, right⟩ := sound
  cases event with
  | incident incident => exact ⟨record.incident incident, right⟩
  | submit data =>
    simp only [step]
    rcases submit_cases r.engine data with ⟨fault, refused⟩ | opened
    · rw [refused]
      exact ⟨record, right⟩
    · have longer := record.submit opened data
      rw [submit_of_open opened] at longer ⊢
      exact ⟨longer, fun answer member =>
        (right answer member).extend record.numbered (List.prefix_append _ _)⟩
  | wait index timeout =>
    refine ⟨record, fun answer member => ?_⟩
    rcases List.mem_append.mp member with earlier | now
    · exact right answer earlier
    · obtain rfl := List.mem_singleton.mp now
      exact right_now record index timeout

theorem sound_after {r : Run σ} (sound : Sound machine state r) (events : List Event) :
    Sound machine state (r.after machine events) := by
  induction events generalizing r with
  | nil => exact sound
  | cons event events ih => exact ih (sound_step sound event)

theorem reachable_sound (machine : StateMachine σ) (id address : String) (state : σ)
    (events : List Event) : Sound machine state ((start id address state).after machine events) :=
  sound_after (sound_start machine id address state) events

/-- The log is in order at every moment of every run, over any state machine.

The accepted submissions are numbered from 1 in the order they came in, in terms
that never fall, and the position of the log is that of the last one. The state
machine has been called once for each of the first `appliedIndex` entries, in
order, and for nothing else; those not applied are the pending ones. A wait that
ended with a result ended after its entry was applied, with the response to it. -/
theorem applied_once_in_order (machine : StateMachine σ) (id address : String) (state : σ)
    (events : List Event) :
    let run := (start id address state).after machine events
    let calls := run.engine.applied
    run.accepted.map (·.index) = List.range' 1 run.accepted.length ∧
    run.engine.lastIndex = run.accepted.length ∧
    (run.accepted.map (·.term)).Pairwise (· ≤ ·) ∧
    run.engine.lastTerm = (run.accepted.getLast?.map (·.term)).getD 0 ∧
    run.engine.lastTerm ≤ run.engine.term ∧
    machine.Replays state calls run.engine.state ∧
    calls.map (fun call => (call.proposal.index, call.proposal.data)) <+:
      run.accepted.map (fun p => (p.index, p.data)) ∧
    (calls.map (·.proposal.index)).Nodup ∧
    run.engine.appliedIndex = calls.length ∧
    run.engine.appliedIndex ≤ run.engine.lastIndex ∧
    run.engine.pending = run.engine.lastIndex - run.engine.appliedIndex ∧
    run.engine.pending = (run.accepted.filter (· ∉ calls.map (·.proposal))).length ∧
    ∀ answer ∈ run.answers, ∀ response, answer.result = .ok response →
      answer.index ≤ answer.appliedIndex ∧
      ∃ p ∈ run.accepted, p.index = answer.index ∧
        machine.Responds state run.accepted p response := by
  intro run calls
  obtain ⟨record, right⟩ := reachable_sound machine id address state events
  have applied : calls.map (fun call => (call.proposal.index, call.proposal.data)) <+:
      run.accepted.map (fun p => (p.index, p.data)) := by
    have longer := (List.take_prefix run.engine.appliedIndex run.accepted).map
      fun p => (p.index, p.data)
    rwa [← record.applied_eq, List.map_map] at longer
  exact ⟨record.numbered, record.lastIndex, record.rising, record.lastTerm, record.lastTerm_le,
    record.replayed, applied, record.applied_nodup, record.appliedIndex, record.appliedIndex_le,
    rfl, by rw [record.pending_eq, record.unapplied], right⟩

/-- A machine that gives back what it is given. Leadership is lost and won again while an entry is
queued; the first two of three entries are applied; the waits for the first and for the last end
with a response and with a timeout. -/
theorem applied_once_in_order_echo :
    let machine : StateMachine Nat := ⟨fun n _ data => some (data, n + 1)⟩
    let soon : Duration := .ofMillis 5
    let events : List Event :=
      [.incident (.role .becomeLeader), .submit [7], .incident .work, .submit [8],
        .incident (.role (.becomeFollower none)), .submit [9], .wait 1 soon,
        .incident (.role .becomeLeader), .submit [9], .incident .work, .wait 3 soon]
    let run := (start "node-1" "127.0.0.1:7379" 0).after machine events
    run.accepted = [⟨1, 1, [7]⟩, ⟨2, 1, [8]⟩, ⟨3, 2, [9]⟩] ∧
    run.engine.appliedIndex = 2 ∧ run.engine.pending = 1 ∧ run.engine.state = 2 ∧
    run.answers = [⟨1, .ok [7], 1⟩, ⟨3, .error (.applyTimeout soon), 2⟩] ∧
    ∃ p ∈ run.accepted, p.index = 1 ∧ machine.Responds 0 run.accepted p [7] := by
  intro machine soon events run
  obtain ⟨-, -, -, -, -, -, -, -, -, -, -, -, answered⟩ :=
    applied_once_in_order machine "node-1" "127.0.0.1:7379" 0 events
  have told : run.answers = [⟨1, .ok [7], 1⟩, ⟨3, .error (.applyTimeout soon), 2⟩] := rfl
  have first : (⟨1, .ok [7], 1⟩ : Answer) ∈ run.answers := told ▸ List.mem_cons_self
  exact ⟨rfl, rfl, rfl, rfl, told, (answered _ first [7] rfl).2⟩

end Run

end LogKv.Engine
