import LogKv.Client.Address
import LogKv.Client.Arguments
import Std.Async.DNS
import Std.Async.TCP

/-!
The command-line client as a program. All that it decides is in `Client.run` and
`Client.Arguments.ofWords`; here are the connections, and the printing.
-/

namespace LogKv.Main

open Std.Async Std.Net

/-- What the program calls itself in its help. -/
def title : Client.Title := ⟨"logkv", "A client for a key-value store that keeps a log"⟩

/-- The exit code for arguments that make no sense. -/
def misuse : UInt32 := 2

/-- Takes bytes off a connection until a reply, or a fault, is there whole. -/
partial def receive (socket : TCP.Socket.Client) (bytes : Bytes) : Async Bytes := do
  match Resp.readReply bytes with
  | .error .endOfInput =>
    match ← socket.recv? 65536 with
    | some chunk => receive socket (bytes ++ chunk.toList)
    | none => return bytes
  | _ => return bytes

/-- The address that a connection takes for a host that was looked up. -/
def socketAddress (host : IPAddr) (port : Nat) : SocketAddress :=
  match host with
  | .v4 address => .v4 ⟨address, port.toUInt16⟩
  | .v6 address => .v6 ⟨address, port.toUInt16⟩

/-- Connects to an address, sends bytes, and takes the reply. -/
def converse (address : Client.Address) (bytes : Bytes) : Async (Except Fault Bytes) := do
  let hosts ← DNS.getAddrInfo address.host (toString address.port)
  match hosts[0]? with
  | none => return .error (.inputOutput "failed to lookup address information")
  | some host =>
    let socket ← TCP.Socket.Client.mk
    socket.connect (socketAddress host address.port)
    socket.send bytes.toByteArray
    return .ok (← receive socket [])

/-- Asks the server at an address. -/
def ask (address : String) (bytes : Bytes) : IO (Except Fault Bytes) := do
  match Client.Address.ofString address with
  | .error fault => return .error fault
  | .ok address =>
    try
      (converse address bytes).block
    catch error => return .error (.inputOutput (toString error))

end LogKv.Main

open LogKv in
/-- Runs the client. -/
def main (words : List String) : IO UInt32 := do
  match Client.Arguments.ofWords words with
  | .misuse =>
    IO.eprint (Client.help Main.title .overview)
    return Main.misuse
  | .help topic =>
    IO.print (Client.help Main.title topic)
    return 0
  | .invoke invocation =>
    let report ← Client.run Main.ask invocation
    IO.eprint report.errors
    IO.print report.output
    return report.code.toUInt32
