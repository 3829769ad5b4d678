import LogKv.Node

/-!
A group of nodes. They share an address book, or have one each, and nothing else: a step on one
node touches that node and, for a registration, the book it looks into. Following another node
reads that node's name and address, which never change.
-/

namespace LogKv

/-- A node and the number of the address book it looks into. -/
structure Member where
  node : Node
  book : Nat

/-- Nodes and their address books. -/
structure Cluster where
  members : List Member
  books : List AddressBook

/-- Something done to one node of a group. -/
inductive Step where
  /-- The node becomes leader of a new term. -/
  | becomeLeader
  /-- The node becomes follower of a leader, or of nobody. -/
  | becomeFollower (leader : Option Leader)
  /-- The node's role alone is set. -/
  | setRole (role : Role)
  /-- The node's leader pointer alone is set. -/
  | setLeader (leader : Option Leader)
  /-- The node's commit delay is set, in milliseconds. -/
  | setDelay (delay : Nat)
  /-- The node becomes follower of another node of the group. -/
  | follow (other : Nat)
  /-- A client address is recorded in the book that the node looks into. -/
  | register (id address : String)
  /-- The node answers a command. -/
  | handle (command : Command)
  /-- Data is submitted to the node's log and waited for, `timeout` milliseconds at most. -/
  | submit (timeout : Nat) (data : Bytes)
  /-- The node's log is applied. -/
  | drain
  /-- The node's log engine is shut down. -/
  | shutdown
  deriving DecidableEq, Repr

/-- What is seen of a step. -/
inductive Seen where
  /-- Nothing but that it is done. -/
  | done
  /-- The reply to a command. -/
  | reply (reply : Reply)
  /-- The verdict on submitted data. -/
  | verdict (result : Except Fault (Option Bytes))

namespace Cluster

/-- The group without nodes, and without books. -/
def empty : Cluster := ⟨[], []⟩

/-- Adds a node that looks into the book of that number, which is added if it is the next one. -/
def add (node : Node) (book : Nat) (c : Cluster) : Cluster :=
  { members := c.members ++ [⟨node, book⟩]
    books := if book = c.books.length then c.books ++ [.empty] else c.books }

/-- Nodes with these settings, over one book if `shared`, and over one each if not. The first
settings that cannot be used decide. -/
def start (shared : Bool) (configs : List Config) : Except Fault Cluster :=
  configs.foldlM (fun c config => do
    let node ← Node.start config
    return c.add node (if shared then 0 else c.members.length)) empty

/-- The book that a member looks into. -/
def bookOf (c : Cluster) (member : Member) : AddressBook := c.books.getD member.book .empty

/-- Does something to the node of a member, given the address book it looks into and the leader
pointers that name the nodes of the group. -/
def onNode (book : AddressBook) (selves : List Leader) (node : Node) : Step → Seen × Node
  | .becomeLeader => (.done, node.adjust .becomeLeader)
  | .becomeFollower leader => (.done, node.adjust (.becomeFollower leader))
  | .setRole role => (.done, node.adjust (.setRole role))
  | .setLeader leader => (.done, node.adjust (.setLeader leader))
  | .setDelay delay => (.done, { node with log := node.log.setDelay delay })
  | .follow other =>
    match selves[other]? with
    | some leader => (.done, node.adjust (.becomeFollower (some leader)))
    | none => (.done, node)
  | .register _ _ => (.done, node)
  | .handle command =>
    match node.handle book command with
    | (reply, node) => (.reply reply, node)
  | .submit timeout data =>
    match node.submit timeout data with
    | (result, node) => (.verdict result, node)
  | .drain => (.done, node.drain)
  | .shutdown => (.done, node.shutdown)

/-- Records what a step registers. -/
def onBook (book : AddressBook) : Step → AddressBook
  | .register id address => book.register id address
  | _ => book

/-- Does something to the node of that number, if there is one. -/
def perform (number : Nat) (step : Step) (c : Cluster) : Option (Seen × Cluster) :=
  match c.members[number]? with
  | none => none
  | some member =>
    let selves := c.members.map fun m => m.node.self
    match onNode (c.bookOf member) selves member.node step with
    | (seen, node) =>
      some (seen,
        { members := c.members.set number { member with node := node }
          books := c.books.modify member.book fun book => onBook book step })

end Cluster

end LogKv
