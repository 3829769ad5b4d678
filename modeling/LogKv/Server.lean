import LogKv.Gate
import LogKv.Node
import LogKv.Session

/-!
A node that serves clients. Each client that is let in has a session of its own; all sessions use
the one node and the one address book. Stopping the server lets nobody in any more and leaves the
open sessions alone.
-/

namespace LogKv

/-- A client's connection, seen from both of its ends. -/
structure Connection where
  /-- The session that serves the client, unless it was sent away. -/
  session : Option Session
  /-- What the client has received and not yet taken. -/
  inbox : Bytes

/-- Whether more bytes may come to the client. -/
def Connection.isOpen (connection : Connection) : Bool :=
  match connection.session with
  | some session => session.ending.isNone
  | none => false

/-- What a client finds that looks for its next reply. -/
inductive Taken where
  /-- The reply. -/
  | reply (reply : Reply)
  /-- Bytes that are no reply. -/
  | malformed (fault : Resp.Fault)
  /-- No whole reply, and nothing more will come. -/
  | closed
  /-- No whole reply yet. -/
  | nothingYet
  deriving DecidableEq, Repr

/-- A serving node. -/
structure Server where
  node : Node
  book : AddressBook
  gate : Gate
  /-- The clients that were let in or sent away, in the order of their arrival. -/
  connections : List Connection

namespace Server

/-- A server for a node. The node's client address is recorded if the server advertises it: the one
in its settings, or else the one it is bound to. -/
def start (node : Node) (book : AddressBook) (bound : Option String) : Server where
  node := node
  book :=
    match bound with
    | some address =>
      book.register node.config.nodeId (node.config.advertised.getD address)
    | none => book
  gate := .start node.config.maxConnections
  connections := []

/-- A client connects. It gets the next number, unless nobody answers. -/
def connect (s : Server) : Option Nat × Server :=
  match s.gate.arrive with
  | (.unanswered, gate) => (none, { s with gate := gate })
  | (.sentAway reply, gate) =>
    (some s.connections.length,
      { s with gate := gate, connections := s.connections ++ [⟨none, Resp.encodeReply reply⟩] })
  | (.served, gate) =>
    (some s.connections.length,
      { s with gate := gate, connections := s.connections ++ [⟨some .start, []⟩] })

/-- What a session has sent since it was in state `before`. -/
def sentSince (before after : Session) : Bytes :=
  (after.outbox.sent.take (after.outbox.sent.length - before.outbox.sent.length)).reverse.flatten

/-- The session of a client has gone on from state `before` to state `after`. The client receives
what was sent in the meantime, and no longer counts if its session has ended. -/
def proceed (number : Nat) (inbox : Bytes) (before after : Session) (s : Server) : Server :=
  { s with
    gate := if before.ending.isNone && after.ending.isSome then s.gate.leave else s.gate
    connections := s.connections.set number ⟨some after, inbox ++ sentSince before after⟩ }

/-- The session of a client reads bytes. Those of a client that is not served go nowhere. -/
def deliver (number : Nat) (bytes : Bytes) (s : Server) : Server :=
  match s.connections[number]? with
  | some ⟨some session, inbox⟩ =>
    match session.receive (Node.handle s.book) bytes s.node with
    | (after, node) => { s with node := node }.proceed number inbox session after
  | _ => s

/-- A client leaves, or says nothing for too long: its session comes to its end. -/
def hangUp (number : Nat) (s : Server) : Server :=
  match s.connections[number]? with
  | some ⟨some session, inbox⟩ => s.proceed number inbox session session.close
  | _ => s

/-- A client takes the next reply. Bytes that do not make a whole one are lost. -/
def take (number : Nat) (s : Server) : Option (Taken × Server) :=
  match s.connections[number]? with
  | none => none
  | some connection =>
    match Resp.readReply connection.inbox with
    | .ok (reply, inbox) =>
      let taken := { connection with inbox := inbox }
      some (.reply reply, { s with connections := s.connections.set number taken })
    | .error .endOfInput =>
      let taken := { connection with inbox := [] }
      some (if connection.isOpen then .nothingYet else .closed,
        { s with connections := s.connections.set number taken })
    | .error fault => some (.malformed fault, s)

/-- Changes the node. -/
def adjust (change : Engine Store → Engine Store) (s : Server) : Server :=
  { s with node := s.node.adjust change }

/-- Lets nobody in any more. -/
def stop (s : Server) : Server := { s with gate := s.gate.stop }

end Server

end LogKv
