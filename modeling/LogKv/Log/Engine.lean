import LogKv.Log.Delivery
import LogKv.Machine

/-!
The log engine of a node: one ordered log, a role and a leader pointer that an operator assigns,
and one worker that applies the entries in order. There is no election and no replication.

A leader accepts a submission by giving it the next index and the current term and putting it at
the end of the queue. Its submitter is owed a delivery from then on. The worker takes entries from
the front of the queue, one at a time (`Engine.work`), and delivers the response of the state
machine to each; nothing here says when. If the state machine breaks down on an entry, the worker
is gone: that entry and those behind it stay unapplied for ever, their deliveries are dropped, and
nothing more is accepted.
-/

namespace LogKv

/-- The part a node plays. -/
inductive Role where
  | leader
  | follower
  | candidate
  deriving DecidableEq, Repr

/-- A pointer to the leader. -/
structure Leader where
  /-- The leader's name in the group. -/
  id : String
  /-- The leader's address for other nodes, which is not its address for clients. -/
  address : String
  deriving DecidableEq, Repr

/-- An accepted entry. -/
structure Proposal where
  index : Nat
  term : Nat
  data : Bytes
  deriving DecidableEq, Repr

/-- Changes the delivery that an entry has among those of all accepted entries. -/
def Proposal.conclude (change : Delivery → Delivery) (deliveries : List Delivery)
    (p : Proposal) : List Delivery :=
  deliveries.modify (p.index - 1) change

/-- An applied entry, with the state machine's response to it. -/
structure Applied where
  proposal : Proposal
  response : Bytes
  deriving DecidableEq, Repr

/-- A log engine over a state machine with states `σ`. -/
structure Engine (σ : Type) where
  /-- The node's name in the group. -/
  id : String
  /-- The node's address for other nodes. -/
  address : String
  role : Role
  term : Nat
  leader : Option Leader
  /-- The index of the last accepted entry, 0 while there is none. -/
  lastIndex : Nat
  /-- The term of the last accepted entry, 0 while there is none. -/
  lastTerm : Nat
  /-- The accepted entries that are not applied, oldest first. -/
  queue : List Proposal
  /-- The deliveries of the accepted entries, in the order of their indices. -/
  deliveries : List Delivery
  /-- The index of the last applied entry, 0 while there is none. -/
  appliedIndex : Nat
  /-- The applied entries in order. -/
  applied : List Applied
  /-- The state of the state machine. -/
  state : σ
  /-- Whether the engine has not been shut down. -/
  accepting : Bool
  /-- Whether the worker is still there. -/
  working : Bool

/-- How the engine takes a submission. -/
inductive Submission where
  /-- The submission has no effect, and this is all that comes of it. -/
  | refused (delivery : Delivery)
  /-- The submission is the entry at this index. -/
  | accepted (index : Nat)

namespace Engine

variable {σ : Type}

/-- A new engine: a follower of nobody, with an empty log. -/
def start (id address : String) (state : σ) : Engine σ where
  id := id
  address := address
  role := .follower
  term := 0
  leader := none
  lastIndex := 0
  lastTerm := 0
  queue := []
  deliveries := []
  appliedIndex := 0
  applied := []
  state := state
  accepting := true
  working := true

/-- The leader pointer that names this node. -/
def self (e : Engine σ) : Leader := ⟨e.id, e.address⟩

/-! ## Roles -/

/-- Starts a new term with this node as leader. -/
def becomeLeader (e : Engine σ) : Engine σ :=
  { e with term := e.term + 1, role := .leader, leader := some e.self }

/-- Steps down to follow a leader, or nobody. -/
def becomeFollower (leader : Option Leader) (e : Engine σ) : Engine σ :=
  { e with role := .follower, leader := leader }

/-- Sets the role alone. -/
def setRole (role : Role) (e : Engine σ) : Engine σ := { e with role := role }

/-- Sets the leader pointer alone. -/
def setLeader (leader : Option Leader) (e : Engine σ) : Engine σ := { e with leader := leader }

/-! ## The log -/

/-- The fault of a submission to an engine that is shut down or has lost its worker. -/
def shutDown : Fault := .replication "consensus engine is shut down"

/-- Submits data for a new entry. Without leadership, or once the engine is shut down, there is a
fault at once. Otherwise a delivery is owed for the entry that goes to the worker. If the worker is
gone, the entry comes back, and what is owed is settled with the fault. -/
def submit (data : Bytes) (e : Engine σ) : Submission × Engine σ :=
  if e.role ≠ .leader then (.refused (.delivered (.error .notLeader)), e)
  else if !e.accepting then (.refused (.delivered (.error shutDown)), e)
  else
    let delivery := Delivery.owed
    let index := e.lastIndex + 1
    if !e.working then (.refused (delivery.resolve (.error shutDown)), e)
    else
      (.accepted index,
        { e with
          lastIndex := index
          lastTerm := e.term
          queue := e.queue ++ [⟨index, e.term, data⟩]
          deliveries := e.deliveries ++ [delivery] })

/-- The entries accepted and not applied. -/
def pending (e : Engine σ) : Nat := e.lastIndex - e.appliedIndex

/-- The entry at the front of the queue is applied: the log has come to it, and its submitter gets
the response. -/
def complete (proposal : Proposal) (queue : List Proposal) (response : Bytes) (state : σ)
    (e : Engine σ) : Engine σ :=
  { e with
    state := state
    queue := queue
    appliedIndex := proposal.index
    applied := e.applied ++ [⟨proposal, response⟩]
    deliveries := Proposal.conclude (.resolve (.ok response)) e.deliveries proposal }

/-- The worker is gone. The entry it is at, if it is at one, and all those behind it are dropped. -/
def loseWorker (e : Engine σ) : Engine σ :=
  { e with
    working := false
    deliveries := e.queue.foldl (Proposal.conclude .drop) e.deliveries }

/-- The worker applies the entry at the front of the queue, if there are both. -/
def work (machine : StateMachine σ) (e : Engine σ) : Engine σ :=
  if e.working then
    match e.queue with
    | [] => e
    | proposal :: queue =>
      match machine.apply e.state proposal.index proposal.data with
      | none => e.loseWorker
      | some (response, state) => e.complete proposal queue response state
  else e

/-- The worker takes up to `steps` entries. -/
def workFor (machine : StateMachine σ) : Nat → Engine σ → Engine σ
  | 0, e => e
  | steps + 1, e => workFor machine steps (e.work machine)

/-- The worker empties the queue, or breaks down on the way. -/
def drain (machine : StateMachine σ) (e : Engine σ) : Engine σ :=
  e.workFor machine e.queue.length

/-- Accepts no more entries. The worker goes on with those in the queue. -/
def close (e : Engine σ) : Engine σ := { e with accepting := false }

/-- Stops accepting entries and lets the worker empty the queue. -/
def shutdown (machine : StateMachine σ) (e : Engine σ) : Engine σ := e.close.drain machine

/-- What has come back for the entry at an index, which is nothing while there is no such entry. -/
def delivery (index : Nat) (e : Engine σ) : Delivery :=
  match index with
  | 0 => .owed
  | position + 1 => e.deliveries.getD position .owed

/-- Whether something has come back, or nothing ever will. -/
def isSettled (index : Nat) (e : Engine σ) : Bool :=
  match e.delivery index with
  | .owed => false
  | _ => true

/-- Lets the worker go on until the entry at `index` is settled, but for `patience` steps at
most. -/
def settle (machine : StateMachine σ) (index : Nat) : Nat → Engine σ → Engine σ
  | 0, e => e
  | patience + 1, e =>
    if e.isSettled index then e else settle machine index patience (e.work machine)

/-- Submits data and waits for what comes back while the worker takes `patience` steps at most. The
wait counts as `timeout` when it ends without a result. -/
def call (machine : StateMachine σ) (timeout : Duration) (patience : Nat) (data : Bytes)
    (e : Engine σ) : LogResult × Engine σ :=
  match e.submit data with
  | (.refused delivery, e) => (delivery.afterWaiting timeout, e)
  | (.accepted index, e) =>
    let e := e.settle machine index patience
    ((e.delivery index).afterWaiting timeout, e)

end Engine

end LogKv
