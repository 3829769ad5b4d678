import LogKv.Proofs.Deliveries
import Mathlib.Data.List.Nodup

/-! What a log engine keeps true about the entries it has accepted, over any
state machine. `Recorded` ties its position, its queue, its deliveries, its applied
entries and its state to the accepted entries; every operation preserves it, and
everything a submitter can be told follows from it. -/
namespace LogKv

variable {σ : Type}

/-! ## State machines driven through entries -/

namespace StateMachine

/-- The calls that take the machine from one state to another, in order: each
gives this response to this entry, in the state that the calls before it left. -/
inductive Replays (machine : StateMachine σ) (start : σ) : List Applied → σ → Prop where
  | nil : Replays machine start [] start
  | snoc {calls : List Applied} {p : Proposal} {response : Bytes} {s t : σ}
      (before : Replays machine start calls s)
      (call : machine.apply s p.index p.data = some (response, t)) :
      Replays machine start (calls ++ [⟨p, response⟩]) t

/-- The response to an entry of a log that is applied in order from the start:
what the machine answers to its index and its own data, after the entries before it. -/
def Responds (machine : StateMachine σ) (start : σ) (log : List Proposal) (p : Proposal)
    (response : Bytes) : Prop :=
  ∃ before s t, machine.Replays start before s ∧
    before.map (·.proposal) = log.take (p.index - 1) ∧
    machine.apply s p.index p.data = some (response, t)

/-- The machine gets through these entries without breaking down. -/
def Handles (machine : StateMachine σ) : σ → List Proposal → Prop
  | _, [] => True
  | s, p :: rest =>
    ∃ response t, machine.apply s p.index p.data = some (response, t) ∧ Handles machine t rest

/-- Every call in a replay was made after exactly the calls before it. -/
theorem Replays.call_at {machine : StateMachine σ} {start s : σ} {calls before after : List Applied}
    {call : Applied} (replays : machine.Replays start calls s)
    (here : calls = before ++ call :: after) :
    ∃ t u, machine.Replays start before t ∧
      machine.apply t call.proposal.index call.proposal.data = some (call.response, u) := by
  induction replays generalizing after with
  | nil => simp at here
  | @snoc calls p response s t earlier last ih =>
    -- The replay grows at its end, so the call is the newest one or lies in what came before.
    rcases List.eq_nil_or_concat after with rfl | ⟨rest, final, rfl⟩
    · obtain ⟨rfl, same⟩ := List.append_inj' here rfl
      obtain rfl : (⟨p, response⟩ : Applied) = call := by simpa using same
      exact ⟨s, t, earlier, last⟩
    · rw [List.concat_eq_append, ← List.cons_append, ← List.append_assoc] at here
      exact ih (List.append_inj' here rfl).1

end StateMachine

namespace Engine

variable {machine : StateMachine σ} {start : σ} {accepted : List Proposal} {e e' : Engine σ}
  {p : Proposal} {rest : List Proposal}

/-! ## The record that every event keeps -/

/-- The engine's position, queue and applied entries are those of the accepted
entries, each of them in one place, and its state is what the applied ones made
of the start. -/
structure Recorded (machine : StateMachine σ) (start : σ) (accepted : List Proposal)
    (e : Engine σ) : Prop where
  numbered : Numbered accepted
  log : e.applied.map (·.proposal) ++ e.queue = accepted
  lastIndex : e.lastIndex = accepted.length
  lastTerm : e.lastTerm = (accepted.getLast?.map (·.term)).getD 0
  appliedIndex : e.appliedIndex = e.applied.length
  answered : e.Answered
  replayed : machine.Replays start e.applied e.state
  rising : (accepted.map (·.term)).Pairwise (· ≤ ·)
  recent : ∀ p ∈ accepted, p.term ≤ e.term

theorem recorded_start (machine : StateMachine σ) (id address : String) (state : σ) :
    Recorded machine state [] (Engine.start id address state) where
  numbered := rfl
  log := rfl
  lastIndex := rfl
  lastTerm := rfl
  appliedIndex := rfl
  answered := rfl
  replayed := .nil
  rising := .nil
  recent := by simp

theorem Recorded.ordered (record : Recorded machine start accepted e) : e.Ordered where
  numbered := record.log ▸ record.numbered
  lastIndex := by
    rw [record.lastIndex, ← record.log, List.length_append, List.length_map]
  answered := record.answered

theorem Recorded.same_log (record : Recorded machine start accepted e) (same : SameLog e e')
    (later : e.term ≤ e'.term) : Recorded machine start accepted e' where
  numbered := record.numbered
  log := by rw [same.applied, same.queue, record.log]
  lastIndex := by rw [same.lastIndex, record.lastIndex]
  lastTerm := by rw [same.lastTerm, record.lastTerm]
  appliedIndex := by rw [same.appliedIndex, same.applied, record.appliedIndex]
  answered := (record.ordered.same_log same).answered
  replayed := by rw [same.applied, same.state]; exact record.replayed
  rising := record.rising
  recent p member := (record.recent p member).trans later

/-- An accepted submission is the next entry, in the current term. -/
theorem Recorded.submit (record : Recorded machine start accepted e) (opened : e.Open)
    (data : Bytes) :
    Recorded machine start (accepted ++ [⟨e.lastIndex + 1, e.term, data⟩]) (e.submit data).2 := by
  have ordered := record.ordered.submit opened data
  rw [submit_of_open opened] at ordered ⊢
  exact {
    numbered := record.numbered.snoc (by rw [record.lastIndex])
    log := by rw [← List.append_assoc, record.log]
    lastIndex := by rw [List.length_append, record.lastIndex]; rfl
    lastTerm := by simp
    appliedIndex := record.appliedIndex
    answered := ordered.answered
    replayed := record.replayed
    rising := by
      rw [List.map_append, List.pairwise_append]
      refine ⟨record.rising, List.pairwise_singleton _ _, ?_⟩
      intro term earlier last final
      obtain ⟨p, member, rfl⟩ := List.mem_map.mp earlier
      obtain rfl : last = e.term := by simpa using final
      exact record.recent p member
    recent := by
      intro p member
      rcases List.mem_append.mp member with earlier | final
      · exact record.recent p earlier
      · obtain rfl := List.mem_singleton.mp final
        exact Nat.le_refl _ }

/-- The worker applies the first entry that is not applied. -/
theorem Recorded.front_index (record : Recorded machine start accepted e)
    (front : e.queue = p :: rest) : p.index = e.appliedIndex + 1 := by
  rw [record.appliedIndex]
  exact record.ordered.front_index front

theorem Recorded.loseWorker (record : Recorded machine start accepted e) :
    Recorded machine start accepted e.loseWorker :=
  { record with answered := record.ordered.loseWorker.answered }

theorem Recorded.turn (record : Recorded machine start accepted e) (turn : Turn machine e e') :
    Recorded machine start accepted e' := by
  have ordered := record.ordered.turn turn
  cases turn with
  | idle stuck => exact record
  | broke alive front fails => exact record.loseWorker
  | applied alive front responds =>
    exact {
      numbered := record.numbered
      log := by
        rw [← record.log, front, complete, List.map_append, List.append_assoc]
        rfl
      lastIndex := record.lastIndex
      lastTerm := record.lastTerm
      appliedIndex := by
        rw [complete, List.length_append, ← record.appliedIndex]
        exact record.front_index front
      answered := ordered.answered
      replayed := record.replayed.snoc responds
      rising := record.rising
      recent := record.recent }

theorem Recorded.work (record : Recorded machine start accepted e) :
    Recorded machine start accepted (e.work machine) := record.turn (work_turn machine e)

theorem Recorded.incident (record : Recorded machine start accepted e) (incident : Incident) :
    Recorded machine start accepted (incident.apply machine e) := by
  cases incident with
  | role change => exact record.same_log (role_same_log change e) (term_le_role change e)
  | work => exact record.work
  | close => exact record.same_log (close_same_log e) (Nat.le_refl _)
  | loseWorker => exact record.loseWorker

/-! ## What the record tells -/

theorem Recorded.applied_eq (record : Recorded machine start accepted e) :
    e.applied.map (·.proposal) = accepted.take e.appliedIndex := by
  rw [← record.log, record.appliedIndex, List.take_left' (List.length_map _)]

theorem Recorded.queue_eq (record : Recorded machine start accepted e) :
    e.queue = accepted.drop e.appliedIndex := by
  rw [← record.log, record.appliedIndex, List.drop_left' (List.length_map _)]

theorem Recorded.appliedIndex_le (record : Recorded machine start accepted e) :
    e.appliedIndex ≤ e.lastIndex := by
  rw [record.appliedIndex, record.lastIndex, ← record.log, List.length_append, List.length_map]
  exact Nat.le_add_right _ _

theorem Recorded.pending_eq (record : Recorded machine start accepted e) :
    e.pending = e.queue.length := by
  rw [pending, record.lastIndex, record.queue_eq, List.length_drop]

/-- The queue holds exactly the accepted entries that are not applied. -/
theorem Recorded.unapplied (record : Recorded machine start accepted e) :
    accepted.filter (· ∉ e.applied.map (·.proposal)) = e.queue := by
  have distinct : accepted.Nodup := by
    apply List.Nodup.of_map (·.index)
    rw [record.numbered]
    exact List.nodup_range'
  rw [← record.log] at distinct ⊢
  have apart := List.disjoint_of_nodup_append distinct
  rw [List.filter_append, List.filter_eq_nil_iff.mpr, List.filter_eq_self.mpr, List.nil_append]
  · intro p queued
    simpa using fun call member same => apart (List.mem_map.mpr ⟨call, member, same⟩) queued
  · intro p applied
    simpa using applied

theorem Recorded.applied_nodup (record : Recorded machine start accepted e) :
    (e.applied.map (·.proposal.index)).Nodup := by
  have all : (accepted.map (·.index)).Nodup := by
    rw [record.numbered]
    exact List.nodup_range'
  have sub : (e.applied.map (·.proposal)).Sublist accepted := by
    rw [record.applied_eq]
    exact List.take_sublist _ _
  simpa [Function.comp_def] using all.sublist (sub.map (·.index))

theorem Recorded.applied_index_le (record : Recorded machine start accepted e) {call : Applied}
    (member : call ∈ e.applied) : call.proposal.index ≤ e.appliedIndex := by
  obtain ⟨i, found⟩ := List.mem_iff_getElem?.mp member
  have inside : i < e.applied.length := (List.getElem?_eq_some_iff.mp found).1
  rw [record.ordered.applied_index found, record.appliedIndex]
  exact inside

/-- An accepted entry that the log has reached is applied. -/
theorem Recorded.applied_of_le (record : Recorded machine start accepted e) {p : Proposal}
    (member : p ∈ accepted) (reached : p.index ≤ e.appliedIndex) :
    ∃ call ∈ e.applied, call.proposal = p := by
  obtain ⟨positive, -, found⟩ := record.numbered.at_index member
  have taken : (accepted.take e.appliedIndex)[p.index - 1]? = some p := by
    rw [List.getElem?_take_of_lt (by omega), found]
  rw [← record.applied_eq] at taken
  exact List.mem_map.mp (List.mem_of_getElem? taken)

/-- The last term is that of an accepted entry, which was not accepted in a later term. -/
theorem Recorded.lastTerm_le (record : Recorded machine start accepted e) :
    e.lastTerm ≤ e.term := by
  rw [record.lastTerm]
  cases last : accepted.getLast? with
  | none => exact Nat.zero_le _
  | some p => exact record.recent p (List.mem_of_getLast? last)

/-- An applied entry was answered with the machine's response to it. -/
theorem Recorded.responds (record : Recorded machine start accepted e) {call : Applied}
    (member : call ∈ e.applied) : machine.Responds start accepted call.proposal call.response := by
  obtain ⟨before, after, split⟩ := List.append_of_mem member
  obtain ⟨s, t, replays, responds⟩ := record.replayed.call_at split
  have log : before.map (·.proposal) ++ call.proposal :: (after.map (·.proposal) ++ e.queue) =
      accepted := by
    rw [← record.log, split]
    simp
  have index : call.proposal.index = before.length + 1 :=
    record.ordered.applied_index (by simp [split])
  refine ⟨before, s, t, replays, ?_, responds⟩
  rw [index, ← log, Nat.add_sub_cancel, List.take_left' (List.length_map _)]

theorem Recorded.delivery_pending (record : Recorded machine start accepted e)
    (member : p ∈ accepted) (pending : e.appliedIndex < p.index) :
    e.delivery p.index = if e.working then .owed else .dropped := by
  obtain ⟨-, bound, -⟩ := record.numbered.at_index member
  rw [record.appliedIndex] at pending
  exact record.ordered.delivery_pending (record.lastIndex ▸ bound) pending

/-! ## Emptying the queue -/

theorem Recorded.workFor (record : Recorded machine start accepted e) (turns : Nat) :
    Recorded machine start accepted (e.workFor machine turns) := by
  induction turns generalizing e with
  | zero => exact record
  | succ turns ih => exact ih record.work

/-- A worker that is dead, or has nothing to do, stays so. -/
theorem workFor_of_stuck (stuck : e.working = false ∨ e.queue = []) (turns : Nat) :
    e.workFor machine turns = e := by
  have still : e.work machine = e := by
    rcases stuck with dead | empty
    · simp [work, dead]
    · simp [work, empty]
  induction turns with
  | zero => rfl
  | succ turns ih => rw [workFor, still, ih]

/-- After as many turns as there are entries, nothing is left for a worker that lives. -/
theorem workFor_length (machine : StateMachine σ) (e : Engine σ) :
    (e.workFor machine e.queue.length).working = false ∨
      (e.workFor machine e.queue.length).queue = [] := by
  -- On the length of the queue: each turn shortens it, or is the last one that does anything.
  induction queued : e.queue.length generalizing e with
  | zero => exact .inr (List.length_eq_zero_iff.mp queued)
  | succ turns ih =>
    rw [workFor]
    have turn := work_turn machine e
    generalize e.work machine = e' at turn
    cases turn with
    | idle stuck =>
      rw [workFor_of_stuck stuck]
      exact stuck
    | broke alive front fails =>
      rw [workFor_of_stuck (.inl rfl)]
      exact .inl rfl
    | applied alive front responds =>
      apply ih
      rw [front] at queued
      exact Nat.succ.inj queued

theorem workFor_handled (alive : e.working = true) (handled : machine.Handles e.state e.queue) :
    (e.workFor machine e.queue.length).queue = [] := by
  induction queued : e.queue generalizing e with
  | nil => exact queued
  | cons p rest ih =>
    rw [queued] at handled
    obtain ⟨response, next, responds, handled⟩ := handled
    have worked : e.work machine = e.complete p rest response next := by
      simp only [work, alive, queued, responds, if_true]
    rw [List.length_cons, workFor, worked]
    exact ih alive handled rfl

end Engine

end LogKv
