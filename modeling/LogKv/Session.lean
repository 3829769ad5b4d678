import LogKv.Resp.Stream

/-!
One client's connection to a node. Bytes are read in chunks; whenever a whole command is there it is
answered, and the replies leave in the order of the commands. A malformed frame is answered once
and ends the session. So does the end of the client's bytes, or too long a silence, which is not
answered, not even in the middle of a command.

A chunk is what one read brings, and a session reads only when it has used up what it read before.
What a client sends at once may take several reads: the buffer of the reader holds 8 KiB, and a read
takes no more than that, unless all of it belongs to a bulk string, which may be read past the
buffer. Nothing here depends on how many bytes a read brings.

Replies are collected and sent together: at the latest when a command has been answered and nothing
is left behind it of what was read, when they no longer fit their buffer, and when the session ends.
-/

namespace LogKv

/-- Replies on their way to a client. -/
structure Outbox where
  /-- What was sent, latest piece first. -/
  sent : List Bytes
  /-- What is still held back. -/
  held : Bytes
  deriving DecidableEq, Repr

namespace Outbox

/-- The most bytes held back. -/
def capacity : Nat := 8 * 1024

/-- Nothing sent and nothing held back. -/
def empty : Outbox := ⟨[], []⟩

/-- Sends what is held back. -/
def flush (o : Outbox) : Outbox :=
  if o.held = [] then o else ⟨o.held :: o.sent, []⟩

/-- Adds bytes. What is held back is sent first if the bytes do not fit behind it, and bytes that
would fill the buffer alone are sent at once. -/
def write (bytes : Bytes) (o : Outbox) : Outbox :=
  let o := if capacity < o.held.length + bytes.length then o.flush else o
  if capacity ≤ bytes.length then ⟨bytes :: o.sent, o.held⟩ else ⟨o.sent, o.held ++ bytes⟩

/-- All bytes sent so far. -/
def output (o : Outbox) : Bytes := o.sent.reverse.flatten

end Outbox

/-- How a session ended. -/
inductive Ending where
  /-- The client's bytes came to an end, or stayed away. -/
  | closed
  /-- A frame was malformed. -/
  | broken (fault : Resp.Fault)
  deriving DecidableEq, Repr

/-- One client's connection. -/
structure Session where
  /-- Bytes that were read and are not yet part of a command. While the session looks for commands
  in them, they end with what is left of the last chunk. -/
  waiting : Bytes
  outbox : Outbox
  /-- How the session ended, if it did. -/
  ending : Option Ending
  deriving DecidableEq, Repr

namespace Session

/-- A session before the first byte. -/
def start : Session := ⟨[], .empty, none⟩

/-- Writes a reply, and sends what is held back if nothing is left of what was read. More bytes may
have arrived, and are not looked for. -/
def answer (reply : Reply) (s : Session) : Session :=
  let outbox := s.outbox.write (Resp.encodeReply reply)
  { s with outbox := if s.waiting = [] then outbox.flush else outbox }

variable {κ : Type} (handle : κ → Command → Reply × κ)

/-- Answers the commands that were read whole, as long as no frame is malformed. -/
def work (s : Session) (k : κ) : Session × κ :=
  match _taken : Resp.readCommand s.waiting with
  | .ok (command, rest) =>
    match handle k command with
    | (reply, k) => work (answer reply { s with waiting := rest }) k
  | .error .endOfInput => (s, k)
  | .error fault =>
    let outbox := s.outbox.write (Resp.encodeReply (.ofFault fault.toFault))
    ({ s with outbox := outbox.flush, ending := some (.broken fault) }, k)
termination_by s.waiting.length
decreasing_by exact Resp.readCommand_length _taken

/-- Reads a chunk of bytes from the client, unless the session has ended. -/
def receive (chunk : Bytes) (s : Session) (k : κ) : Session × κ :=
  match s.ending with
  | some _ => (s, k)
  | none => work handle { s with waiting := s.waiting ++ chunk } k

/-- Ends a session whose client sends nothing more. -/
def close (s : Session) : Session :=
  match s.ending with
  | some _ => s
  | none => { s with outbox := s.outbox.flush, ending := some .closed }

/-- A whole session: the chunks in order, and then nothing more. -/
def run (chunks : List Bytes) (k : κ) : Session × κ :=
  match chunks.foldl (fun (s, k) chunk => receive handle chunk s k) (start, k) with
  | (s, k) => (s.close, k)

end Session

end LogKv
