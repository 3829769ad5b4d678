import LogKv.Config
import LogKv.Log.Clocked
import LogKv.Replica

/-!
A node: settings, and a log engine over a key-value store in memory. Nodes of a group share an
address book, which is not part of any of them.
-/

namespace LogKv

/-- A log engine over a key-value store as a replica. A write waits while the worker takes
`patience` steps at most, and that counts as `timeout`. -/
def Engine.replica {σ : Type} (storage : Storage σ) (timeout : Duration) (patience : Nat) :
    Replica (Engine σ) where
  role := role
  leader := leader
  read e key := storage.get e.state key
  propose e frame := e.call (KeyValue.machine storage) timeout patience frame

/-- A log engine with a clock as a replica. A write waits for `timeout` milliseconds. -/
def Clocked.replica {σ : Type} (storage : Storage σ) (timeout : Nat) : Replica (Clocked σ) where
  role c := c.engine.role
  leader c := c.engine.leader
  read c key := storage.get c.engine.state key
  propose c frame := c.call (KeyValue.machine storage) timeout frame

/-- A node of a group. -/
structure Node where
  config : Config
  log : Clocked Store

namespace Node

/-- The state machine of a node. -/
def machine : StateMachine Store := KeyValue.machine .memory

/-- A new node: a follower of nobody with an empty store, if the settings are usable. -/
def start (config : Config) : Except Fault Node :=
  match config.check with
  | .error fault => .error fault
  | .ok () => .ok ⟨config, .start config.nodeId config.peerAddress .empty⟩

/-- The keys and values of the node. -/
def store (node : Node) : Store := node.log.engine.state

/-- The leader pointer that names the node. -/
def self (node : Node) : Leader := ⟨node.config.nodeId, node.config.peerAddress⟩

/-- The node as a replica. -/
def replica (node : Node) : Replica (Clocked Store) :=
  Clocked.replica .memory node.config.applyTimeout

/-- Changes the log engine in a way that takes no time and concerns no entry. -/
def adjust (change : Engine Store → Engine Store) (node : Node) : Node :=
  { node with log := node.log.adjust change }

/-- Answers a command. -/
def handle (book : AddressBook) (node : Node) (command : Command) : Reply × Node :=
  match node.replica.handle book node.log command with
  | (reply, log) => (reply, { node with log := log })

/-- Submits data to the log, whatever it is, and reads the response. The wait is the caller's own,
`timeout` milliseconds; the settings speak of commands only. -/
def submit (timeout : Nat) (data : Bytes) (node : Node) : Except Fault (Option Bytes) × Node :=
  match Clocked.call machine timeout data node.log with
  | (.error fault, log) => (.error fault, { node with log := log })
  | (.ok raw, log) => (Outcome.resultOf raw, { node with log := log })

/-- Waits until the log is applied. -/
def drain (node : Node) : Node := { node with log := node.log.drain machine }

/-- Shuts the log engine down. -/
def shutdown (node : Node) : Node := { node with log := node.log.shutdown machine }

/-- Puts a binding straight into the store, past the log. -/
def preload (key value : Bytes) (node : Node) : Node :=
  node.adjust fun engine => { engine with state := engine.state.put key value }

end Node

end LogKv
