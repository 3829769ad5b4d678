import LogKv.Request
import LogKv.Resp.Stream

/-!
The command-line client. It sends one command to a server and prints the reply. If it is asked to,
it follows one redirect: it sends the same bytes to the address in the reply, and prints what comes
back from there, even if that is a redirect again.
-/

namespace LogKv.Client

/-- What a run of the client is asked to do. -/
structure Invocation where
  /-- The address to send the command to. -/
  server : String
  /-- Whether to follow a redirect. -/
  follow : Bool
  /-- What to ask for. -/
  request : Request
  deriving DecidableEq, Repr

/-- What a run of the client leaves behind. -/
structure Report where
  /-- The exit code. -/
  code : Nat
  /-- What it wrote to standard output. -/
  output : String
  /-- What it wrote to standard error. -/
  errors : String
  deriving DecidableEq, Repr

/-- The exit code of a run that got a reply other than an error. -/
def success : Nat := 0

/-- The exit code of any other run. -/
def failure : Nat := 1

/-- How a reply is printed. -/
def shown : Reply → String
  | .status text => text
  | .error text => s!"(error) {text}"
  | .integer n =>
    let number := n.toInt
    s!"(integer) {number}"
  | .value bytes =>
    let text := Utf8.lossy bytes
    s!"\"{text}\""
  | .null => "(nil)"

/-- A run that ends with a reply. -/
def replied (errors : String) (reply : Reply) : Report :=
  ⟨if reply.isError then failure else success, shown reply ++ "\n", errors⟩

/-- A run that ends without a reply. -/
def failed (errors : String) (fault : Fault) : Report :=
  let text := fault.message
  ⟨failure, "", s!"{errors}(error) {text}\n"⟩

/-- What is printed before a redirect is followed. -/
def redirected (address : String) : String := s!"-> Redirected to {address}\n"

/-- The address to turn to after a reply, if the client is to follow redirects. -/
def nextAddress? (follow : Bool) (reply : Reply) : Option String :=
  if follow then reply.redirectAddress? else none

/-- The reply in what a server sent. -/
def replyIn (bytes : Bytes) : Except Fault Reply :=
  match Resp.readReply bytes with
  | .ok (reply, _) => .ok reply
  | .error fault => .error fault.toFault

/-- Runs the client. To ask a server is to connect to an address, send bytes, and take the bytes
that come back. -/
def run {m : Type → Type} [Monad m] (ask : String → Bytes → m (Except Fault Bytes))
    (invocation : Invocation) : m Report := do
  let bytes := Resp.encodeCommand invocation.request.command
  match (← ask invocation.server bytes).bind replyIn with
  | .error fault => return failed "" fault
  | .ok reply =>
    match nextAddress? invocation.follow reply with
    | none => return replied "" reply
    | some address =>
      match (← ask address bytes).bind replyIn with
      | .error fault => return failed (redirected address) fault
      | .ok reply => return replied (redirected address) reply

end LogKv.Client
