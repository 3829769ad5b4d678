import LogKv.Proofs.LogRuns
import LogKv.Proofs.MapRefinement

/-! What one command does to a node, whatever the node's log holds. The queue may be
full of entries that were submitted before, in frames that are no entries even. A write
that is answered before its wait ends has been applied behind all of them, and leaves
an empty queue. -/
namespace LogKv

variable {σ : Type}

/-! ## Turns of the worker -/

namespace Engine

variable {machine : StateMachine σ} {e : Engine σ} {p : Proposal}

/-- Whatever happens to a new engine, its entries stay numbered. -/
theorem Run.ordered (machine : StateMachine σ) (id address : String) (state : σ)
    (events : List Event) : ((Run.start id address state).after machine events).engine.Ordered :=
  (Run.reachable_sound machine id address state events).record.ordered

theorem Ordered.workFor (ordered : e.Ordered) (machine : StateMachine σ) (turns : Nat) :
    (e.workFor machine turns).Ordered := by
  induction turns generalizing e with
  | zero => exact ordered
  | succ turns ih => exact ih (ordered.work machine)

/-- Nothing has come back for the last entry while it is in the queue. -/
theorem Ordered.delivery_queued (ordered : e.Ordered) {earlier : List Proposal}
    (queue : e.queue = earlier ++ [p]) :
    e.delivery p.index = if e.working then .owed else .dropped := by
  have index : p.index = e.applied.length + earlier.length + 1 := by
    apply ordered.numbered.index_at
    rw [queue, ← List.append_assoc, List.getElem?_append_right (by simp)]
    simp
  have bound := ordered.lastIndex
  rw [queue, List.length_append, List.length_singleton] at bound
  exact ordered.delivery_pending (by omega) (by omega)

/-- Over a store, whatever keeps it, a turn of the worker reports on the entry in front. -/
theorem work_report (storage : Storage σ) (alive : e.working = true) {rest : List Proposal}
    (queue : e.queue = p :: rest) :
    e.work (KeyValue.machine storage) =
      e.complete p rest (KeyValue.report storage e.state p.data).1.encode
        (KeyValue.report storage e.state p.data).2 := by
  simp only [work, alive, queue, if_true, KeyValue.machine, KeyValue.respond]

/-- No turn of the worker touches the role or the leader pointer. -/
theorem workFor_role (machine : StateMachine σ) (turns : Nat) (e : Engine σ) :
    (e.workFor machine turns).role = e.role ∧ (e.workFor machine turns).leader = e.leader := by
  induction turns generalizing e with
  | zero => exact ⟨rfl, rfl⟩
  | succ turns ih =>
    obtain ⟨role, leader⟩ := ih (e.work machine)
    have same : (e.work machine).role = e.role ∧ (e.work machine).leader = e.leader := by
      have turn := work_turn machine e
      generalize e.work machine = e' at turn
      cases turn <;> exact ⟨rfl, rfl⟩
    exact ⟨role.trans same.1, leader.trans same.2⟩

end Engine

/-! ## A write behind a queue -/

/-- The store after the data of these entries, in order, whatever they are. -/
def Store.applying (s : Store) (queue : List Proposal) : Store :=
  queue.foldl (fun s p => (KeyValue.report .memory s p.data).2) s

/-- The store that a new entry will find when its turn comes. -/
def Engine.settled (e : Engine Store) : Store := e.state.applying e.queue

namespace Engine

variable {e : Engine Store} {p : Proposal} {entry : Entry}

theorem work_front (alive : e.working = true) {rest : List Proposal} (queue : e.queue = p :: rest) :
    e.work Node.machine =
      e.complete p rest (KeyValue.report .memory e.state p.data).1.encode
        (KeyValue.report .memory e.state p.data).2 :=
  work_report .memory alive queue

/-- After any number of turns the last write is still the last in the queue, or the queue
is empty and the last write is the one that was applied last. -/
theorem workFor_last (turns : Nat) (alive : e.working = true) {earlier : List Proposal}
    (queue : e.queue = earlier ++ [p]) (fits : entry.Addressable) (frame : p.data = entry.encode) :
    let e' := e.workFor Node.machine turns
    let found := e.state.applying earlier
    e'.working = true ∧
    ((∃ later, e'.queue = later ++ [p]) ∨
      e'.queue = [] ∧ e'.state = entry.effect found ∧
        ∃ calls, e'.applied = calls ++ [⟨p, (entry.outcome found).encode⟩]) := by
  induction turns generalizing e earlier with
  | zero => exact ⟨alive, .inl ⟨earlier, queue⟩⟩
  | succ turns ih =>
    cases earlier with
    | nil =>
      rw [List.nil_append] at queue
      rw [workFor, work_front alive queue, frame, KeyValue.report_encode fits,
        workFor_of_stuck (.inr rfl)]
      exact ⟨alive, .inr ⟨rfl, rfl, e.applied, rfl⟩⟩
    | cons first earlier =>
      have worked := work_front alive queue
      have alive' : (e.work Node.machine).working = true := worked ▸ alive
      have queue' : (e.work Node.machine).queue = earlier ++ [p] := congrArg Engine.queue worked
      have later := ih alive' queue'
      rw [congrArg Engine.state worked] at later
      exact later

/-- The engine has applied this write, and all that was queued before it. -/
structure Wrote (entry : Entry) (e e' : Engine Store) : Prop where
  ordered : e'.Ordered
  role : e'.role = e.role
  leader : e'.leader = e.leader
  idle : e'.queue = []
  state : e'.state = entry.effect e.settled

/-- A write that is answered before its wait ends is applied to what the queue leaves
behind, and is the last that is. -/
theorem call_open (ordered : e.Ordered) (opened : e.Open) (fits : entry.Addressable)
    (timeout : Duration) (n : Nat) :
    let (result, e') := e.callDuring Node.machine timeout (turns n) entry.encode
    result = .error (.applyTimeout timeout) ∨
    result = .ok (entry.outcome e.settled).encode ∧ Wrote entry e e' := by
  rw [callDuring_of_open opened]
  have ordered' := (ordered.submit opened entry.encode).workFor Node.machine n
  let own : Proposal := ⟨e.lastIndex + 1, e.term, entry.encode⟩
  have submitted : (e.submit entry.encode).2.queue = e.queue ++ [own] ∧
      (e.submit entry.encode).2.working = true ∧ (e.submit entry.encode).2.state = e.state ∧
      (e.submit entry.encode).2.role = e.role ∧ (e.submit entry.encode).2.leader = e.leader := by
    rw [submit_of_open opened]
    exact ⟨rfl, opened.working, rfl, rfl, rfl⟩
  obtain ⟨queue, alive, state, role, leader⟩ := submitted
  obtain ⟨alive, ⟨later, waiting⟩ | ⟨idle, effect, calls, applied⟩⟩ :=
    workFor_last n alive queue fits rfl
  · left
    have delivery := ordered'.delivery_queued waiting
    rw [alive] at delivery
    rw [show e.lastIndex + 1 = own.index from rfl, delivery]
    rfl
  · right
    have last := congrArg List.getLast? applied
    rw [List.getLast?_concat] at last
    have delivery := ordered'.delivery_applied (List.mem_of_getLast? last)
    rw [show e.lastIndex + 1 = own.index from rfl, delivery]
    obtain ⟨role', leader'⟩ := workFor_role Node.machine n (e.submit entry.encode).2
    rw [state] at effect ⊢
    exact ⟨rfl, ordered', role'.trans role, leader'.trans leader, idle, effect⟩

end Engine

/-! ## One command -/

namespace Node

/-- What a command comes to at a node, if no wait ends before its write is applied. Only a
write to a leader that takes writes changes anything. -/
inductive Handled (book : AddressBook) (node : Node) (command : Command) : Reply → Node → Prop where
  | refused {fault : Fault} (invalid : Request.ofCommand command = .error fault) :
      Handled book node command (.ofFault fault) node
  | redirected {request : Request} (valid : Request.ofCommand command = .ok request)
      (other : node.log.engine.role ≠ .leader) :
      Handled book node command (node.replica.redirect book node.log) node
  | read {key : Bytes} (valid : Request.ofCommand command = .ok (.get key))
      (leads : node.log.engine.role = .leader) :
      Handled book node command (node.replica.readReply node.log key) node
  | shut {request : Request} {entry : Entry} {done : Reply}
      (valid : Request.ofCommand command = .ok request)
      (writes : request.write? = some (entry, done)) (leads : node.log.engine.role = .leader) :
      Handled book node command (.ofFault Engine.shutDown) node
  | wrote {request : Request} {entry : Entry} {done : Reply} {node' : Node}
      (valid : Request.ofCommand command = .ok request)
      (writes : request.write? = some (entry, done)) (leads : node.log.engine.role = .leader)
      (applied : Engine.Wrote entry node.log.engine node'.log.engine) :
      Handled book node command (.ofVerdict done (entry.outcome node.log.engine.settled).result)
        node'

theorem handle_handled {node : Node} {command : Command} (ordered : node.log.engine.Ordered)
    (book : AddressBook) (fits : command.Addressable)
    (punctual : ¬node.replica.Expires node.log command) :
    Handled book node command (node.handle book command).1 (node.handle book command).2 := by
  have handled : node.handle book command =
      ((node.replica.handle book node.log command).1,
        { node with log := (node.replica.handle book node.log command).2 }) := rfl
  rw [handled]
  cases command.course node.log.engine.role with
  | refused invalid =>
    rw [Replica.handle_of_invalid invalid]
    exact .refused invalid
  | redirected valid other =>
    rw [Replica.handle_of_not_leader valid other]
    exact .redirected valid other
  | read valid leads =>
    rw [Replica.handle_of_get valid leads]
    exact .read valid leads
  | @written request entry done valid writes leads =>
    have entryFits := Request.entry_addressable valid writes fits
    rw [Replica.handle_of_write valid writes leads]
    by_cases shut : node.log.engine.accepting = false ∨ node.log.engine.working = false
    · have refused := Engine.submit_of_shut_down leads shut entry.encode
      have proposed : node.replica.propose node.log entry.encode =
          (.error Engine.shutDown, node.log) := by
        simp only [replica, Clocked.replica, Clocked.call, Clocked.submit, refused, Clocked.wait]
        rfl
      rw [Replica.commit, proposed]
      exact .shut valid writes leads
    · simp only [not_or, Bool.not_eq_false] at shut
      have opened : node.log.engine.Open := ⟨leads, shut.1, shut.2⟩
      obtain ⟨n, called⟩ :=
        Clocked.call_turns machine node.config.applyTimeout entry.encode node.log
      have outcome := Engine.call_open ordered opened entryFits
        (.ofMillis node.config.applyTimeout) n
      rw [called] at outcome
      rcases outcome with expired | ⟨answered, applied⟩
      · exact absurd ⟨request, entry, done, _, valid, writes, leads, expired⟩ punctual
      · have proposed : node.replica.propose node.log entry.encode =
            (.ok (entry.outcome node.log.engine.settled).encode,
              (node.log.call machine node.config.applyTimeout entry.encode).2) :=
          Prod.ext answered rfl
        rw [Replica.commit, proposed]
        simp only [Entry.resultOf_outcome]
        exact .wrote valid writes leads applied

theorem readReply_store (node : Node) (key : Bytes) :
    node.replica.readReply node.log key = (node.store.get? key).elim .null .value := by
  have state : node.log.engine.state = node.store := rfl
  simp only [Replica.readReply, replica, Clocked.replica, Storage.memory, state]
  cases node.store.get? key <;> rfl

end Node

end LogKv
