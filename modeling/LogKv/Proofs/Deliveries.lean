import LogKv.Proofs.LogSteps
import Mathlib.Data.List.Range

/-! What comes back for the entries of a log. The engine keeps a delivery for each of
them, which the worker settles when it has applied the entry, and which is dropped
when the worker dies. In any engine that only steps have changed this comes to one
rule (`Ordered.delivery_eq`): an applied entry was delivered its own response, and
the entries behind it are owed theirs as long as there is a worker. What is settled
stays so. -/
namespace LogKv.Engine

variable {σ : Type} {machine : StateMachine σ} {e e' : Engine σ} {p : Proposal}
  {rest : List Proposal}

/-! ## Numbers -/

/-- The entries are numbered 1, 2, 3 and so on. -/
def Numbered (log : List Proposal) : Prop := log.map (·.index) = List.range' 1 log.length

theorem Numbered.index_at {log : List Proposal} (numbered : Numbered log) {i : Nat} {p : Proposal}
    (found : log[i]? = some p) : p.index = i + 1 := by
  have inside : i < log.length := (List.getElem?_eq_some_iff.mp found).1
  have same := congrArg (·[i]?) numbered
  simp only [List.getElem?_map, found, Option.map_some, List.getElem?_range' inside,
    Option.some.injEq] at same
  omega

theorem Numbered.at_index {log : List Proposal} (numbered : Numbered log) {p : Proposal}
    (member : p ∈ log) : 1 ≤ p.index ∧ p.index ≤ log.length ∧ log[p.index - 1]? = some p := by
  obtain ⟨i, found⟩ := List.mem_iff_getElem?.mp member
  have inside : i < log.length := (List.getElem?_eq_some_iff.mp found).1
  have index := numbered.index_at found
  have position : p.index - 1 = i := by omega
  exact ⟨by omega, by omega, position ▸ found⟩

theorem Numbered.snoc {log : List Proposal} (numbered : Numbered log) {p : Proposal}
    (next : p.index = log.length + 1) : Numbered (log ++ [p]) := by
  have last : 1 + log.length = p.index := by omega
  unfold Numbered at numbered ⊢
  rw [List.length_append, List.length_singleton, List.range'_1_concat, List.map_append, numbered,
    last]
  rfl

theorem Numbered.behind {log more : List Proposal} (numbered : Numbered (log ++ more)) :
    more.map (·.index) = List.range' (log.length + 1) more.length := by
  unfold Numbered at numbered
  rw [List.map_append, List.length_append, ← List.range'_append_1, Nat.add_comm 1] at numbered
  exact (List.append_inj numbered (by simp)).2

/-! ## What is owed -/

/-- What there is for an entry that is not applied. -/
def unanswered (e : Engine σ) : Delivery := if e.working then .owed else .dropped

/-- Each applied entry was delivered its own response, and what is behind them is owed
one as long as there is a worker, and dropped after that. -/
def Answered (e : Engine σ) : Prop :=
  e.deliveries = e.applied.map (fun call => .delivered (.ok call.response)) ++
    e.queue.map fun _ => e.unanswered

/-- The entries of an engine, the applied ones and those behind them, are numbered from 1
in order, and each has its delivery. -/
structure Ordered (e : Engine σ) : Prop where
  numbered : Numbered (e.applied.map (·.proposal) ++ e.queue)
  lastIndex : e.lastIndex = e.applied.length + e.queue.length
  answered : e.Answered

theorem conclude_next (settled : List Delivery) (next : p.index = settled.length + 1)
    (change : Delivery → Delivery) (d : Delivery) (later : List Delivery) :
    Proposal.conclude change (settled ++ d :: later) p = settled ++ change d :: later := by
  rw [Proposal.conclude, next, Nat.add_sub_cancel]
  simp [List.modify_eq_take_cons_drop]

theorem foldl_conclude (settled : List Delivery) {queue : List Proposal}
    (numbered : queue.map (·.index) = List.range' (settled.length + 1) queue.length)
    (change : Delivery → Delivery) (d : Delivery) :
    queue.foldl (Proposal.conclude change) (settled ++ queue.map fun _ => d) =
      settled ++ queue.map fun _ => change d := by
  induction queue generalizing settled with
  | nil => rfl
  | cons p queue ih =>
    obtain ⟨next, numbered⟩ := List.cons.inj numbered
    have later := ih (settled ++ [change d]) (by simpa using numbered)
    rw [List.foldl_cons, List.map_cons, conclude_next settled next]
    simpa using later

theorem Ordered.front_index (ordered : e.Ordered) (front : e.queue = p :: rest) :
    p.index = e.applied.length + 1 := by
  apply ordered.numbered.index_at
  rw [front, List.getElem?_append_right (by simp)]
  simp

theorem Ordered.same_log (ordered : e.Ordered) (same : SameLog e e') : e'.Ordered where
  numbered := by rw [same.applied, same.queue]; exact ordered.numbered
  lastIndex := by rw [same.lastIndex, same.applied, same.queue]; exact ordered.lastIndex
  answered := by
    rw [Answered, unanswered, same.deliveries, same.applied, same.queue, same.working]
    exact ordered.answered

theorem Ordered.submit (ordered : e.Ordered) (opened : e.Open) (data : Bytes) :
    (e.submit data).2.Ordered := by
  rw [submit_of_open opened]
  refine ⟨?_, ?_, ?_⟩
  · have next : e.lastIndex + 1 = (e.applied.map (·.proposal) ++ e.queue).length + 1 := by
      rw [ordered.lastIndex, List.length_append, List.length_map]
    have longer := ordered.numbered.snoc (p := ⟨e.lastIndex + 1, e.term, data⟩) next
    rwa [List.append_assoc] at longer
  · simp only [ordered.lastIndex, List.length_append, List.length_singleton]
    omega
  · rw [Answered, ordered.answered]
    simp [unanswered, opened.working]

/-- The delivery that the worker settles is that of the entry it has applied. -/
theorem Ordered.complete (ordered : e.Ordered) (alive : e.working = true)
    (front : e.queue = p :: rest) (response : Bytes) (state : σ) :
    (e.complete p rest response state).Ordered := by
  have numbered := ordered.numbered
  have answered := ordered.answered
  rw [front] at numbered
  refine ⟨?_, ?_, ?_⟩
  · simpa [Engine.complete] using numbered
  · simp only [Engine.complete, ordered.lastIndex, front, List.length_append, List.length_cons,
      List.length_nil]
    omega
  · have next := conclude_next (e.applied.map fun call => .delivered (.ok call.response))
      (by simpa using ordered.front_index front) (.resolve (.ok response)) e.unanswered
      (rest.map fun _ => e.unanswered)
    rw [Answered, front, List.map_cons] at answered
    simp only [Answered, Engine.complete, answered, next]
    simp [unanswered, alive]

theorem Ordered.loseWorker (ordered : e.Ordered) : e.loseWorker.Ordered := by
  refine ⟨ordered.numbered, ordered.lastIndex, ?_⟩
  have numbered := ordered.numbered.behind
  rw [List.length_map] at numbered
  have dropped : e.unanswered.drop = .dropped := by
    rw [unanswered]
    split <;> simp
  have concluded := foldl_conclude (e.applied.map fun call => .delivered (.ok call.response))
    (by simpa using numbered) .drop e.unanswered
  rw [← ordered.answered, dropped] at concluded
  exact concluded

theorem Ordered.turn (ordered : e.Ordered) (turn : Turn machine e e') : e'.Ordered := by
  cases turn with
  | idle stuck => exact ordered
  | broke alive front fails => exact ordered.loseWorker
  | applied alive front responds => exact ordered.complete alive front _ _

theorem Ordered.work (ordered : e.Ordered) (machine : StateMachine σ) :
    (e.work machine).Ordered := ordered.turn (work_turn machine e)

/-! ## What comes back -/

/-- Nothing comes back for an entry that nobody submitted. -/
theorem Ordered.delivery_unknown (ordered : e.Ordered) {index : Nat}
    (unknown : index = 0 ∨ e.lastIndex < index) : e.delivery index = .owed := by
  rcases unknown with rfl | beyond
  · rfl
  · obtain ⟨position, rfl⟩ := Nat.exists_eq_succ_of_ne_zero (by omega : index ≠ 0)
    have size := congrArg List.length ordered.answered
    have bound := ordered.lastIndex
    simp only [List.length_append, List.length_map] at size
    rw [delivery, List.getD_eq_getElem?_getD, List.getElem?_eq_none (by omega)]
    rfl

/-- What comes back for an entry is a matter of how far the log is applied, and of whether there
still is a worker. -/
theorem Ordered.delivery_eq (ordered : e.Ordered) {index : Nat} (positive : 0 < index)
    (accepted : index ≤ e.lastIndex) :
    e.delivery index =
      match e.applied[index - 1]? with
      | some call => .delivered (.ok call.response)
      | none => e.unanswered := by
  obtain ⟨position, rfl⟩ := Nat.exists_eq_succ_of_ne_zero (Nat.ne_of_gt positive)
  have bound := ordered.lastIndex
  rw [delivery, List.getD_eq_getElem?_getD, ordered.answered, Nat.succ_sub_one]
  by_cases reached : position < e.applied.length
  · rw [List.getElem?_append_left (by simpa using reached), List.getElem?_map,
      List.getElem?_eq_getElem reached]
    rfl
  · rw [List.getElem?_append_right (by simpa using reached), List.getElem?_map, List.length_map,
      List.getElem?_eq_getElem (by omega), List.getElem?_eq_none (by omega)]
    rfl

theorem Ordered.applied_index (ordered : e.Ordered) {i : Nat} {call : Applied}
    (found : e.applied[i]? = some call) : call.proposal.index = i + 1 := by
  have inside : i < e.applied.length := (List.getElem?_eq_some_iff.mp found).1
  apply ordered.numbered.index_at
  rw [List.getElem?_append_left (by simpa using inside), List.getElem?_map, found]
  rfl

/-- What comes back for an applied entry is its own response. -/
theorem Ordered.delivery_applied (ordered : e.Ordered) {call : Applied}
    (member : call ∈ e.applied) :
    e.delivery call.proposal.index = .delivered (.ok call.response) := by
  obtain ⟨i, found⟩ := List.mem_iff_getElem?.mp member
  have inside : i < e.applied.length := (List.getElem?_eq_some_iff.mp found).1
  have bound := ordered.lastIndex
  rw [ordered.applied_index found, ordered.delivery_eq (by omega) (by omega), Nat.add_sub_cancel,
    found]

theorem Ordered.delivery_pending (ordered : e.Ordered) {index : Nat}
    (accepted : index ≤ e.lastIndex) (pending : e.applied.length < index) :
    e.delivery index = if e.working then .owed else .dropped := by
  rw [ordered.delivery_eq (by omega) accepted, List.getElem?_eq_none (by omega)]
  rfl

/-- Only an applied entry can give its submitter a result. -/
theorem Ordered.delivery_ok (ordered : e.Ordered) {index : Nat} {timeout : Duration}
    {response : Bytes} (answered : (e.delivery index).afterWaiting timeout = .ok response) :
    ∃ call ∈ e.applied, call.proposal.index = index ∧ call.response = response := by
  by_cases unknown : index = 0 ∨ e.lastIndex < index
  · rw [ordered.delivery_unknown unknown] at answered
    cases answered
  · rw [ordered.delivery_eq (by omega) (by omega)] at answered
    cases found : e.applied[index - 1]? with
    | none =>
      cases alive : e.working <;>
        simp [found, unanswered, alive, Delivery.afterWaiting] at answered
    | some call =>
      rw [found] at answered
      refine ⟨call, List.mem_of_getElem? found, ?_, Except.ok.inj answered⟩
      rw [ordered.applied_index found]
      omega

/-- What is settled stays as it is: a response because nothing that is applied is taken back, and
the loss of an entry because no worker comes back. -/
theorem Ordered.delivery_later (ordered : e.Ordered) (ordered' : e'.Ordered) (later : Later e e')
    (longer : e.lastIndex ≤ e'.lastIndex) {index : Nat} (settled : e.isSettled index = true) :
    e'.delivery index = e.delivery index := by
  rw [isSettled] at settled
  by_cases unknown : index = 0 ∨ e.lastIndex < index
  · rw [ordered.delivery_unknown unknown] at settled
    cases settled
  · rw [ordered.delivery_eq (by omega) (by omega)] at settled ⊢
    rw [ordered'.delivery_eq (by omega) (by omega)]
    cases found : e.applied[index - 1]? with
    | some call =>
      obtain ⟨more, applied⟩ := later.applied
      have inside : index - 1 < e.applied.length := (List.getElem?_eq_some_iff.mp found).1
      rw [← applied, List.getElem?_append_left inside, found]
    | none =>
      have dead : e.working = false := by
        cases alive : e.working with
        | false => rfl
        | true => simp [found, unanswered, alive] at settled
      obtain ⟨dead', applied⟩ := later.dead dead
      rw [applied, found, unanswered, unanswered, dead, dead']

end LogKv.Engine
