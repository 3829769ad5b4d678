import LogKv.AddressBook
import LogKv.Log.Engine
import LogKv.Reply
import LogKv.Request

/-!
Answering commands. Whatever orders the writes of a node is seen here as a `Replica`: its role, its
leader pointer, the local store, and a way to put one frame through the log and wait for what comes
back. A command is checked first; a node that does not lead then redirects the client, reads
included; a leader reads its store and sends writes through the log. Each command gets exactly one
reply, and nothing is remembered from one command to the next.
-/

namespace LogKv

/-- What answering commands needs of a node in a state of type `κ`. -/
structure Replica (κ : Type) where
  /-- The part the node plays. -/
  role : κ → Role
  /-- The leader, as far as the node knows. -/
  leader : κ → Option Leader
  /-- The value of a key in the local store. -/
  read : κ → Bytes → LogResult
  /-- Submits a frame to the log and waits for what comes back. -/
  propose : κ → Bytes → LogResult × κ

namespace Replica

variable {κ : Type} (replica : Replica κ) (book : AddressBook)

/-- Whether the node leads. -/
def isLeader (k : κ) : Bool := replica.role k = .leader

/-- The client address of the leader, looked up anew each time. -/
def leaderAddress (k : κ) : Except Fault String :=
  match replica.leader k with
  | none => .error .leaderUnknown
  | some leader => book.address leader.id

/-- The reply that sends a client to the leader. -/
def redirect (k : κ) : Reply :=
  match replica.leaderAddress book k with
  | .ok address => .moved address
  | .error fault => .ofFault fault

/-- Puts an entry through the log. A fault of the engine and a response that cannot be read are
passed on; a response that can be read is the state machine's verdict. -/
def commit (k : κ) (entry : Entry) : Except Fault (Option Bytes) × κ :=
  match replica.propose k entry.encode with
  | (.error fault, k) => (.error fault, k)
  | (.ok raw, k) => (Outcome.resultOf raw, k)

/-- The reply to a read. A key that is not bound is no failure. -/
def readReply (k : κ) (key : Bytes) : Reply :=
  match replica.read k key with
  | .ok value => .value value
  | .error .keyNotFound => .null
  | .error fault => .ofFault fault

/-- The reply to a write: `done` if it took effect, and the reason if not. -/
def writeReply (done : Reply) (k : κ) (entry : Entry) : Reply × κ :=
  match replica.commit k entry with
  | (.ok _, k) => (done, k)
  | (.error fault, k) => (.ofFault fault, k)

/-- Answers a request. -/
def serve (k : κ) (request : Request) : Reply × κ :=
  if replica.isLeader k then
    match request with
    | .get key => (replica.readReply k key, k)
    | .set key value => replica.writeReply .ok k (.put key value)
    | .del key => replica.writeReply (.integer 1) k (.delete key)
  else (replica.redirect book k, k)

/-- Answers a command. -/
def handle (k : κ) (command : Command) : Reply × κ :=
  match Request.ofCommand command with
  | .ok request => replica.serve book k request
  | .error fault => (.ofFault fault, k)

end Replica

end LogKv
