import LogKv.Duration
import LogKv.Fault

/-!
The settings of a node.
-/

namespace LogKv

/-- The settings of a node. -/
structure Config where
  /-- The node's name in the group. -/
  nodeId : String := "node-1"
  /-- The address for other nodes, which leader pointers show. -/
  peerAddress : String := "127.0.0.1:7379"
  /-- The client address that other nodes hand out, if it is not the bound address. -/
  advertised : Option String := none
  /-- How long a write waits for its result, in milliseconds. -/
  applyTimeout : Nat := 1000
  /-- The address to listen on for clients. -/
  listenAddress : String := "127.0.0.1:6379"
  /-- The most clients served at a time. -/
  maxConnections : Nat := 1024
  /-- How long to wait for a client's bytes, in milliseconds; 0 is for ever. -/
  readTimeout : Nat := 0
  /-- How long to wait for a client to take bytes, in milliseconds; 0 is for ever. -/
  writeTimeout : Nat := 5000
  deriving DecidableEq, Repr

namespace Config

/-- Refuses settings that a node cannot run with. The first unusable one is reported. -/
def check (config : Config) : Except Fault Unit :=
  if config.applyTimeout = 0 then
    .error (.config "apply_timeout_ms must be greater than zero")
  else if config.maxConnections = 0 then
    .error (.config "max_connections must be greater than zero")
  else if config.nodeId = "" then .error (.config "node_id must not be empty")
  else .ok ()

/-- How long a write waits for its result. -/
def patience (config : Config) : Duration := .ofMillis config.applyTimeout

end Config

end LogKv
