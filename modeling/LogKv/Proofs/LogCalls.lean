import LogKv.Node
import LogKv.Proofs.LogRecord
import LogKv.Proofs.WriteEffects

/-! Submitting and waiting. Whatever happens to an engine while a submitter waits,
what the submitter gets is decided by the state after it. A clock only chooses how
many turns the worker takes meanwhile, so what holds whatever happens holds for an
engine that keeps time. -/
namespace LogKv

variable {σ : Type}

namespace Engine

/-- The engine after all this has happened to it, in order. -/
def afterAll (machine : StateMachine σ) (incidents : List Incident) (e : Engine σ) : Engine σ :=
  incidents.foldl (fun e incident => incident.apply machine e) e

/-- Submits data and waits for the result while all this happens. -/
def callDuring (machine : StateMachine σ) (timeout : Duration) (meanwhile : List Incident)
    (data : Bytes) (e : Engine σ) : LogResult × Engine σ :=
  match e.submit data with
  | (.refused delivery, e) => (delivery.afterWaiting timeout, e)
  | (.accepted index, e) =>
    let e := e.afterAll machine meanwhile
    ((e.delivery index).afterWaiting timeout, e)

/-- The engine as a replica that waits for a write while all this happens. -/
def replicaDuring (storage : Storage σ) (timeout : Duration) (meanwhile : List Incident) :
    Replica (Engine σ) where
  role := role
  leader := leader
  read e key := storage.get e.state key
  propose e frame := e.callDuring (KeyValue.machine storage) timeout meanwhile frame

/-- So many turns of the worker. -/
def turns (n : Nat) : List Incident := List.replicate n .work

variable {machine : StateMachine σ} {e : Engine σ}

theorem afterAll_turns (n : Nat) (e : Engine σ) :
    e.afterAll machine (turns n) = e.workFor machine n := by
  induction n generalizing e with
  | zero => rfl
  | succ n ih => exact ih (e.work machine)

theorem callDuring_of_open (opened : e.Open) (timeout : Duration) (n : Nat) (data : Bytes) :
    e.callDuring machine timeout (turns n) data =
      ((((e.submit data).2.workFor machine n).delivery (e.lastIndex + 1)).afterWaiting timeout,
        (e.submit data).2.workFor machine n) := by
  rw [callDuring, ← afterAll_turns, submit_of_open opened]

theorem later_afterAll (machine : StateMachine σ) (incidents : List Incident) (e : Engine σ) :
    Later e (e.afterAll machine incidents) := by
  induction incidents generalizing e with
  | nil => exact .refl e
  | cons incident incidents ih => exact (later_incident machine incident e).trans (ih _)

/-- The worker, if it lives, has nothing to do. -/
def Idle (e : Engine σ) : Prop := e.working = true → e.queue = []

theorem Idle.incident (idle : e.Idle) (machine : StateMachine σ) (incident : Incident) :
    (incident.apply machine e).Idle := by
  cases incident with
  | role change => cases change <;> exact idle
  | work =>
    have stuck : e.working = false ∨ e.queue = [] := by
      cases alive : e.working with
      | false => exact .inl rfl
      | true => exact .inr (idle alive)
    have still : e.work machine = e := workFor_of_stuck stuck 1
    rw [Incident.apply, still]
    exact idle
  | close => exact idle
  | loseWorker => intro alive; cases alive

theorem Idle.afterAll (idle : e.Idle) (machine : StateMachine σ) (incidents : List Incident) :
    (e.afterAll machine incidents).Idle := by
  induction incidents generalizing e with
  | nil => exact idle
  | cons incident incidents ih => exact ih (idle.incident machine incident)

theorem workFor_add (first second : Nat) (e : Engine σ) :
    (e.workFor machine first).workFor machine second = e.workFor machine (first + second) := by
  induction first generalizing e with
  | zero => rw [workFor, Nat.zero_add]
  | succ first ih => rw [Nat.succ_add, workFor, workFor, ih]

end Engine

namespace Clocked

theorem catchUpFor_turns (machine : StateMachine σ) (steps : Nat) (c : Clocked σ) :
    ∃ n, (catchUpFor machine steps c).engine = c.engine.workFor machine n := by
  induction steps generalizing c with
  | zero => exact ⟨0, rfl⟩
  | succ steps ih =>
    rw [catchUpFor]
    split
    · split
      · obtain ⟨n, same⟩ := ih (c.work machine)
        exact ⟨n + 1, same⟩
      · exact ⟨0, rfl⟩
    · exact ⟨0, rfl⟩

theorem waitFor_turns (machine : StateMachine σ) (index deadline looks : Nat) (c : Clocked σ) :
    ∃ n, (waitFor machine index deadline looks c).engine = c.engine.workFor machine n := by
  induction looks generalizing c with
  | zero => exact ⟨0, rfl⟩
  | succ looks ih =>
    rw [waitFor]
    split
    · exact ⟨0, rfl⟩
    · split
      · split
        · obtain ⟨n, same⟩ := ih (c.work machine)
          exact ⟨n + 1, same⟩
        · exact ⟨0, rfl⟩
      · exact ⟨0, rfl⟩

/-- To keep time is to give the worker some number of turns. -/
theorem call_turns (machine : StateMachine σ) (timeout : Nat) (data : Bytes) (c : Clocked σ) :
    ∃ n, c.engine.callDuring machine (.ofMillis timeout) (Engine.turns n) data =
      ((c.call machine timeout data).1, (c.call machine timeout data).2.engine) := by
  rcases Engine.submit_cases c.engine data with ⟨fault, refused⟩ | opened
  · exact ⟨0, by simp only [Engine.callDuring, call, submit, refused, wait]⟩
  · obtain ⟨first, caughtUp⟩ := catchUpFor_turns machine (c.engine.submit data).2.queue.length
      { c with
        engine := (c.engine.submit data).2
        due := if c.engine.queue.isEmpty then c.now + c.delay else c.due }
    obtain ⟨second, waited⟩ := waitFor_turns machine (c.engine.lastIndex + 1) (c.now + timeout) _ _
    refine ⟨first + second, ?_⟩
    -- First the worker catches up with the clock, then the clock runs until the deadline.
    have settled := waited.trans (congrArg (Engine.workFor machine second) caughtUp)
    rw [Engine.workFor_add, ← Engine.afterAll_turns] at settled
    simp only [Engine.submit_of_open opened] at settled
    simp only [Engine.callDuring, call, submit, Engine.submit_of_open opened, wait,
      catchUp]
    rw [settled]

/-- An engine that keeps time answers a command as it would with some number of turns. -/
theorem handle_turns (storage : Storage σ) (timeout : Nat) (book : AddressBook) (command : Command)
    (c : Clocked σ) :
    ∃ n, (Engine.replicaDuring storage (.ofMillis timeout) (Engine.turns n)).handle book c.engine
        command =
      (((replica storage timeout).handle book c command).1,
        ((replica storage timeout).handle book c command).2.engine) := by
  cases command.course c.engine.role with
  | refused invalid =>
    exact ⟨0, by rw [Replica.handle_of_invalid invalid, Replica.handle_of_invalid invalid]⟩
  | redirected valid other =>
    refine ⟨0, ?_⟩
    rw [Replica.handle_of_not_leader valid other, Replica.handle_of_not_leader valid other]
    rfl
  | read valid leads =>
    refine ⟨0, ?_⟩
    rw [Replica.handle_of_get valid leads, Replica.handle_of_get valid leads]
    rfl
  | @written request entry done valid writes leads =>
    obtain ⟨n, called⟩ := call_turns (KeyValue.machine storage) timeout entry.encode c
    refine ⟨n, ?_⟩
    rw [Replica.handle_of_write valid writes leads, Replica.handle_of_write valid writes leads]
    simp only [Replica.commit, Engine.replicaDuring, replica, called]
    rcases c.call (KeyValue.machine storage) timeout entry.encode with ⟨fault | raw, c'⟩ <;> rfl

end Clocked

end LogKv
