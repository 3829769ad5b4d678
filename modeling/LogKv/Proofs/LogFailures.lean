import LogKv.Proofs.LogRuns

/-! How a log engine fails. A submission is refused by role, by a shutdown or for
want of a worker, and then changes nothing. A shutdown applies what is queued. A
state machine that breaks down on an entry stops the log before that entry for
good, and everyone who waits for it or a later one is told so. -/
namespace LogKv.Engine

variable {σ : Type} {machine : StateMachine σ} {state : σ} {accepted : List Proposal}
  {e : Engine σ}

/-- Whatever is submitted, and however long anyone waits for it, the answer is this
fault and nothing about the engine changes. -/
def Refuses (machine : StateMachine σ) (fault : Fault) (e : Engine σ) : Prop :=
  ∀ data, ∃ delivery, e.submit data = (.refused delivery, e) ∧
    ∀ timeout, delivery.afterWaiting timeout = .error fault ∧
      ∀ patience, e.call machine timeout patience data = (.error fault, e)

/-- The worker is about to turn to the entry at this index, and the state machine
will break down on it. -/
def BreaksOn (machine : StateMachine σ) (index : Nat) (e : Engine σ) : Prop :=
  e.working = true ∧ ∃ p rest, e.queue = p :: rest ∧ p.index = index ∧
    machine.apply e.state p.index p.data = none

theorem refuses_of_submit {fault : Fault}
    (refused : ∀ data, e.submit data = (.refused (.delivered (.error fault)), e)) :
    Refuses machine fault e := by
  intro data
  refine ⟨_, refused data, fun timeout => ⟨rfl, fun patience => ?_⟩⟩
  rw [call, refused data]
  rfl

theorem work_of_breaksOn {index : Nat} (breaks : BreaksOn machine index e) :
    e.work machine = e.loseWorker := by
  obtain ⟨alive, p, rest, front, -, fails⟩ := breaks
  simp only [work, alive, front, fails, if_true]

/-! ## Shutting down -/

/-- Once a shutdown is through, every accepted entry is settled, whatever became of it. -/
theorem settled_after_shutdown (record : Recorded machine state accepted e) {p : Proposal}
    (member : p ∈ accepted) : (e.shutdown machine).isSettled p.index = true := by
  have closed := record.same_log (close_same_log e) (Nat.le_refl _)
  have through : Recorded machine state accepted (e.shutdown machine) := closed.workFor _
  by_cases reached : p.index ≤ (e.shutdown machine).appliedIndex
  · obtain ⟨call, called, rfl⟩ := through.applied_of_le member reached
    rw [isSettled, through.ordered.delivery_applied called]
  · rw [isSettled, through.delivery_pending member (by omega)]
    obtain ⟨-, bound, -⟩ := record.numbered.at_index member
    rcases workFor_length machine e.close with dead | empty
    · have gone : (e.shutdown machine).working = false := dead
      rw [gone]
      rfl
    · have full := through.queue_eq
      have none_left : (e.shutdown machine).queue = [] := empty
      rw [none_left, eq_comm, List.drop_eq_nil_iff] at full
      omega

/-- A live worker that the state machine does not fail applies every accepted entry before the
shutdown is through, and each of them gets its response. -/
theorem shutdown_applies (record : Recorded machine state accepted e) (alive : e.working = true)
    (handled : machine.Handles e.state e.queue) :
    let e' := e.shutdown machine
    e'.applied.map (·.proposal) = accepted ∧ e'.queue = [] ∧ e'.pending = 0 ∧
    ∀ p ∈ accepted, ∃ response, machine.Responds state accepted p response ∧
      ∀ timeout, (e'.delivery p.index).afterWaiting timeout = .ok response := by
  intro e'
  have closed := record.same_log (close_same_log e) (Nat.le_refl _)
  have through : Recorded machine state accepted e' := closed.workFor _
  have empty : e'.queue = [] := workFor_handled (e := e.close) alive handled
  have all : e'.applied.map (·.proposal) = accepted := by
    rw [← through.log, empty, List.append_nil]
  refine ⟨all, empty, by rw [through.pending_eq, empty, List.length_nil], fun p member => ?_⟩
  rw [← all] at member
  obtain ⟨call, called, rfl⟩ := List.mem_map.mp member
  refine ⟨call.response, through.responds called, fun timeout => ?_⟩
  rw [through.ordered.delivery_applied called]
  rfl

namespace Run

/-- A shutdown closes the engine and gives the worker a turn for each queued entry. -/
theorem after_shutdown (r : Run σ) :
    (r.after machine (.incident .close ::
      List.replicate r.engine.queue.length (.incident .work))).engine =
      r.engine.shutdown machine := by
  have turns (n : Nat) (r : Run σ) :
      (r.after machine (List.replicate n (.incident .work))).engine =
        r.engine.workFor machine n := by
    induction n generalizing r with
    | zero => rfl
    | succ n ih => exact ih (r.step machine (.incident .work))
  exact turns _ (r.step machine (.incident .close))

/-- Once a shutdown has begun the engine accepts nothing more. -/
theorem closed_after (r : Run σ) {events : List Event} (closed : .incident .close ∈ events) :
    (r.after machine events).engine.accepting = false := by
  obtain ⟨before, later, rfl⟩ := List.append_of_mem closed
  rw [after_append, after_cons]
  exact (forward_after machine _ later).later.closed rfl

/-- When the state machine breaks down on an entry, the log ends before it for ever, and
nothing will come of it or of those behind it. -/
theorem broken_for_ever {r : Run σ} (sound : Sound machine state r) {index : Nat}
    (breaks : BreaksOn machine index r.engine) (later : List Event) :
    let r' := r.after machine (.incident .work :: later)
    r'.engine.working = false ∧ r'.accepted = r.accepted ∧
    r'.engine.appliedIndex = index - 1 ∧
    r'.engine.applied.map (·.proposal) = r.accepted.take (index - 1) ∧
    ∀ p ∈ r'.accepted, index ≤ p.index → ∀ timeout,
      (r'.engine.delivery p.index).afterWaiting timeout =
        .error (.replication "entry dropped before it was applied") := by
  intro r'
  -- The turn itself only loses the worker; everything else stays because the worker is dead.
  have lost : r.step machine (.incident .work) = { r with engine := r.engine.loseWorker } := by
    rw [step, Incident.apply, work_of_breaksOn breaks]
  have forward : Forward (r.step machine (.incident .work)) r' := forward_after machine _ later
  rw [lost] at forward
  obtain ⟨gone, applied⟩ := forward.later.dead rfl
  have accepted : r'.accepted = r.accepted := forward.dead rfl
  have record : Recorded machine state r'.accepted r'.engine :=
    (sound_after (sound_step sound (.incident .work)) later).record
  obtain ⟨-, p, rest, front, here, -⟩ := breaks
  have position : r'.engine.appliedIndex = index - 1 := by
    have calls : r'.engine.applied = r.engine.applied := applied
    have before := sound.record.front_index front
    rw [record.appliedIndex, calls, ← sound.record.appliedIndex]
    omega
  refine ⟨gone, accepted, position, ?_, fun q member behind timeout => ?_⟩
  · rw [record.applied_eq, accepted, position]
  · obtain ⟨positive, -, -⟩ := record.numbered.at_index member
    rw [record.delivery_pending member (by omega), gone]
    rfl

/-- What has come back for an entry, or that nothing will, is not taken back. -/
theorem settled_for_ever {r : Run σ} (sound : Sound machine state r) {index : Nat}
    (settled : r.engine.isSettled index = true) (later : List Event) :
    (r.after machine later).engine.delivery index = r.engine.delivery index := by
  have forward : Forward r (r.after machine later) := forward_after machine _ later
  have record := (sound_after sound later).record
  refine sound.record.ordered.delivery_later record.ordered forward.later ?_ settled
  rw [sound.record.lastIndex, record.lastIndex]
  exact forward.accepted.length_le

/-- Nothing that is submitted is lost without its submitter being told, in any run.

Without leadership, after the beginning of a shutdown and after the death of the
worker every submission is refused, for the first of these reasons that holds,
and leaves the engine as it was. When a shutdown is through no accepted entry is
left unsettled; if the worker lived and the state machine handles the queue, each
is applied and answered. If the state machine breaks down on an entry, exactly
those before it are applied, for ever, and it and all behind it are dropped. What is
settled for an entry stays settled as it is. -/
theorem nothing_lost_silently (machine : StateMachine σ) (id address : String) (state : σ)
    (events : List Event) :
    let run := (start id address state).after machine events
    let down := run.engine.shutdown machine
    (run.engine.role ≠ .leader → Refuses machine .notLeader run.engine) ∧
    (run.engine.role = .leader → .incident .close ∈ events ∨ run.engine.working = false →
      Refuses machine (.replication "consensus engine is shut down") run.engine) ∧
    (down = (run.after machine (.incident .close ::
        List.replicate run.engine.queue.length (.incident .work))).engine ∧
      (∀ p ∈ run.accepted, down.isSettled p.index = true) ∧
      (run.engine.working = true → machine.Handles run.engine.state run.engine.queue →
        down.applied.map (·.proposal) = run.accepted ∧ down.queue = [] ∧ down.pending = 0 ∧
        ∀ p ∈ run.accepted, ∃ response, machine.Responds state run.accepted p response ∧
          ∀ timeout, (down.delivery p.index).afterWaiting timeout = .ok response)) ∧
    (∀ index, BreaksOn machine index run.engine → ∀ later,
      let broken := run.after machine (.incident .work :: later)
      broken.engine.working = false ∧ broken.accepted = run.accepted ∧
      broken.engine.appliedIndex = index - 1 ∧
      broken.engine.applied.map (·.proposal) = run.accepted.take (index - 1) ∧
      ∀ p ∈ broken.accepted, index ≤ p.index → ∀ timeout,
        (broken.engine.delivery p.index).afterWaiting timeout =
          .error (.replication "entry dropped before it was applied")) ∧
    ∀ index, run.engine.isSettled index = true → ∀ later,
      (run.after machine later).engine.delivery index = run.engine.delivery index := by
  intro run down
  have sound : Sound machine state run := reachable_sound machine id address state events
  refine ⟨fun other => refuses_of_submit (submit_of_not_leader other), fun leads gone => ?_,
    ⟨(after_shutdown run).symm, fun p member => settled_after_shutdown sound.record member,
      shutdown_applies sound.record⟩, fun index breaks => broken_for_ever sound breaks,
    fun index => settled_for_ever sound⟩
  exact refuses_of_submit (submit_of_shut_down leads (gone.imp_left (closed_after _)))

/-- A state machine that breaks down on empty data, as the second of three entries. -/
theorem nothing_lost_silently_fragile :
    let machine : StateMachine Nat :=
      ⟨fun n _ data => if data = [] then none else some (data, n + 1)⟩
    let events : List Event :=
      [.incident (.role .becomeLeader), .submit [1], .submit [], .submit [2], .incident .work]
    let later : List Event := [.incident .work, .submit [3]]
    let run := (start "node-1" "127.0.0.1:7379" 0).after machine events
    let broken := run.after machine (.incident .work :: later)
    BreaksOn machine 2 run.engine ∧ broken.engine.appliedIndex = 1 ∧
    (∀ timeout, (broken.engine.delivery 1).afterWaiting timeout = .ok [1]) ∧
    ∀ timeout, (broken.engine.delivery 3).afterWaiting timeout =
      .error (.replication "entry dropped before it was applied") := by
  intro machine events later run broken
  have breaks : BreaksOn machine 2 run.engine :=
    ⟨rfl, ⟨2, 1, []⟩, [⟨3, 1, [2]⟩], rfl, rfl, rfl⟩
  obtain ⟨-, -, -, broke, stays⟩ :=
    nothing_lost_silently machine "node-1" "127.0.0.1:7379" 0 events
  obtain ⟨-, -, position, -, dropped⟩ := broke 2 breaks later
  have kept : broken.engine.delivery 1 = .delivered (.ok [1]) :=
    stays 1 rfl (.incident .work :: later)
  refine ⟨breaks, position, fun timeout => ?_, dropped ⟨3, 1, [2]⟩ (by decide) (by decide)⟩
  rw [kept]
  rfl

end Run

end LogKv.Engine
