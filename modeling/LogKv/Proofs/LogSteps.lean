import LogKv.Log.Engine
import Mathlib.Data.List.Basic

/-! What can happen to a log engine, and what each step does. A turn of the worker
finds nothing to do, breaks down or applies the entry in front (`Turn`); a submission
is refused, in one of three ways, or finds the engine open; and nothing that happens
takes back what is applied (`Later`). -/
namespace LogKv

variable {σ : Type}

/-- A change that an operator makes to a node's role or leader pointer. -/
inductive RoleChange where
  | becomeLeader
  | becomeFollower (leader : Option Leader)
  | setRole (role : Role)
  | setLeader (leader : Option Leader)
  deriving DecidableEq, Repr

/-- Makes the change. -/
def RoleChange.apply : RoleChange → Engine σ → Engine σ
  | becomeLeader => Engine.becomeLeader
  | becomeFollower leader => Engine.becomeFollower leader
  | setRole role => Engine.setRole role
  | setLeader leader => Engine.setLeader leader

/-- Something that happens to an engine whatever is submitted to it. -/
inductive Incident where
  | role (change : RoleChange)
  /-- The worker turns to the entry at the front of the queue. -/
  | work
  /-- A shutdown begins. Emptying the queue takes turns of the worker, further incidents. -/
  | close
  /-- The worker dies, whatever the reason. -/
  | loseWorker
  deriving DecidableEq, Repr

/-- Lets it happen. -/
def Incident.apply (machine : StateMachine σ) : Incident → Engine σ → Engine σ
  | role change => change.apply
  | work => Engine.work machine
  | close => Engine.close
  | loseWorker => Engine.loseWorker

namespace Engine

variable {machine : StateMachine σ} {e e' : Engine σ}

/-- What a turn of the worker amounts to. -/
inductive Turn (machine : StateMachine σ) (e : Engine σ) : Engine σ → Prop where
  | idle (stuck : e.working = false ∨ e.queue = []) : Turn machine e e
  | broke {p : Proposal} {rest : List Proposal} (alive : e.working = true)
      (front : e.queue = p :: rest) (fails : machine.apply e.state p.index p.data = none) :
      Turn machine e e.loseWorker
  | applied {p : Proposal} {rest : List Proposal} {response : Bytes} {state : σ}
      (alive : e.working = true) (front : e.queue = p :: rest)
      (responds : machine.apply e.state p.index p.data = some (response, state)) :
      Turn machine e (e.complete p rest response state)

theorem work_turn (machine : StateMachine σ) (e : Engine σ) : Turn machine e (e.work machine) := by
  unfold work
  split
  · rename_i alive
    cases front : e.queue with
    | nil => exact .idle (.inr front)
    | cons p rest =>
      simp only
      cases call : machine.apply e.state p.index p.data with
      | none => exact .broke alive front call
      | some result => exact .applied alive front call
  · rename_i dead
    exact .idle (.inl (by simpa using dead))

theorem submit_of_not_leader (other : e.role ≠ .leader) (data : Bytes) :
    e.submit data = (.refused (.delivered (.error .notLeader)), e) := by
  rw [submit, if_pos other]

theorem submit_of_closed (leads : e.role = .leader) (closed : e.accepting = false) (data : Bytes) :
    e.submit data = (.refused (.delivered (.error shutDown)), e) := by
  rw [submit, if_neg (not_not.mpr leads), if_pos (by simp [closed])]

theorem submit_of_dead (leads : e.role = .leader) (accepting : e.accepting = true)
    (dead : e.working = false) (data : Bytes) :
    e.submit data = (.refused (Delivery.owed.resolve (.error shutDown)), e) := by
  rw [submit, if_neg (not_not.mpr leads), if_neg (by simp [accepting])]
  exact if_pos (by simp [dead])

/-- The two ways in which an engine without its channel or its worker refuses come to the same. -/
theorem submit_of_shut_down (leads : e.role = .leader)
    (shut : e.accepting = false ∨ e.working = false) (data : Bytes) :
    e.submit data = (.refused (.delivered (.error shutDown)), e) := by
  cases accepting : e.accepting with
  | false => exact submit_of_closed leads accepting data
  | true => exact submit_of_dead leads accepting (by simpa [accepting] using shut) data

/-- The engine leads, is not shut down and has its worker. -/
structure Open (e : Engine σ) : Prop where
  leads : e.role = .leader
  accepting : e.accepting = true
  working : e.working = true

theorem submit_of_open (opened : e.Open) (data : Bytes) :
    e.submit data = (.accepted (e.lastIndex + 1),
      { e with
        lastIndex := e.lastIndex + 1
        lastTerm := e.term
        queue := e.queue ++ [⟨e.lastIndex + 1, e.term, data⟩]
        deliveries := e.deliveries ++ [.owed] }) := by
  obtain ⟨leads, accepting, working⟩ := opened
  rw [submit, if_neg (not_not.mpr leads), if_neg (by simp [accepting])]
  exact if_neg (by simp [working])

/-- A submission is refused with a fault and changes nothing, or it finds the engine open. -/
theorem submit_cases (e : Engine σ) (data : Bytes) :
    (∃ fault, e.submit data = (.refused (.delivered (.error fault)), e)) ∨ e.Open := by
  by_cases leads : e.role = .leader
  · by_cases shut : e.accepting = false ∨ e.working = false
    · exact .inl ⟨_, submit_of_shut_down leads shut data⟩
    · simp only [not_or, Bool.not_eq_false] at shut
      exact .inr ⟨leads, shut.1, shut.2⟩
  · exact .inl ⟨_, submit_of_not_leader leads data⟩

/-- Both engines have the same log, the same worker and the same state behind it. -/
structure SameLog (e e' : Engine σ) : Prop where
  lastIndex : e'.lastIndex = e.lastIndex
  lastTerm : e'.lastTerm = e.lastTerm
  queue : e'.queue = e.queue
  deliveries : e'.deliveries = e.deliveries
  appliedIndex : e'.appliedIndex = e.appliedIndex
  applied : e'.applied = e.applied
  state : e'.state = e.state
  working : e'.working = e.working

theorem role_same_log (change : RoleChange) (e : Engine σ) : SameLog e (change.apply e) := by
  cases change <;> exact ⟨rfl, rfl, rfl, rfl, rfl, rfl, rfl, rfl⟩

theorem close_same_log (e : Engine σ) : SameLog e e.close :=
  ⟨rfl, rfl, rfl, rfl, rfl, rfl, rfl, rfl⟩

/-- No change of role lowers the term. -/
theorem term_le_role (change : RoleChange) (e : Engine σ) : e.term ≤ (change.apply e).term := by
  cases change with
  | becomeLeader => exact Nat.le_succ _
  | becomeFollower leader => exact Nat.le_refl _
  | setRole role => exact Nat.le_refl _
  | setLeader leader => exact Nat.le_refl _

/-- The later engine has applied all that the earlier one has. An engine that is
closed stays closed, and a dead worker applies nothing more. -/
structure Later (e e' : Engine σ) : Prop where
  applied : e.applied <+: e'.applied
  closed : e.accepting = false → e'.accepting = false
  dead : e.working = false → e'.working = false ∧ e'.applied = e.applied

theorem Later.refl (e : Engine σ) : Later e e :=
  ⟨List.prefix_rfl, fun closed => closed, fun dead => ⟨dead, rfl⟩⟩

theorem Later.trans {e'' : Engine σ} (first : Later e e') (second : Later e' e'') :
    Later e e'' where
  applied := first.applied.trans second.applied
  closed := second.closed ∘ first.closed
  dead dead := by
    obtain ⟨dead', applied'⟩ := first.dead dead
    obtain ⟨dead'', applied''⟩ := second.dead dead'
    exact ⟨dead'', applied''.trans applied'⟩

/-- What an operation does that neither applies anything nor brings an engine back. -/
theorem later_of_applied (same : e'.applied = e.applied)
    (closed : e.accepting = false → e'.accepting = false)
    (dead : e.working = false → e'.working = false) : Later e e' :=
  ⟨same.symm ▸ List.prefix_rfl, closed, fun gone => ⟨dead gone, same⟩⟩

theorem later_submit (data : Bytes) (e : Engine σ) : Later e (e.submit data).2 := by
  rcases submit_cases e data with ⟨fault, refused⟩ | opened
  · rw [refused]
    exact .refl e
  · rw [submit_of_open opened]
    exact later_of_applied rfl (fun closed => closed) fun dead => dead

theorem later_incident (machine : StateMachine σ) (incident : Incident) (e : Engine σ) :
    Later e (incident.apply machine e) := by
  cases incident with
  | role change =>
    cases change <;> exact later_of_applied rfl (fun closed => closed) fun dead => dead
  | work =>
    have turn := work_turn machine e
    show Later e (e.work machine)
    generalize e.work machine = e' at turn
    cases turn with
    | idle stuck => exact .refl e
    | broke alive front fails => exact later_of_applied rfl (fun closed => closed) fun _ => rfl
    | applied alive front responds =>
      exact ⟨List.prefix_append _ _, fun closed => closed, fun dead => by simp [dead] at alive⟩
  | close => exact later_of_applied rfl (fun _ => rfl) fun dead => dead
  | loseWorker => exact later_of_applied rfl (fun closed => closed) fun _ => rfl

end Engine

end LogKv
