import LogKv.Duration

/-!
Everything that can go wrong, by cause. A client sees a fault as an error reply that carries
`Fault.message`, so the wording is part of the wire protocol. Faults that come from below with a
wording of their own (a framing fault, an unreadable log entry, a store) carry it as text.
-/

namespace LogKv

/-- A reason for refusing or failing an operation. -/
inductive Fault where
  /-- A stream ended where more bytes were needed. -/
  | endOfInput
  /-- Reading or writing a stream failed for any other reason. -/
  | inputOutput (text : String)
  /-- A request without a command name. -/
  | noCommand
  /-- A command name that is not in the table. -/
  | unknownCommand (name : String)
  /-- A known command with the wrong number of operands. -/
  | wrongArity (name : String)
  /-- The framing of a stream is broken. -/
  | protocol (text : String)
  /-- This node does not lead and knows of no leader. -/
  | leaderUnknown
  /-- The leader is known but no client address is recorded for it. -/
  | addressUnknown (node : String)
  /-- A submission to a log engine that does not lead. -/
  | notLeader
  /-- The wait for an entry ended first. The entry stays in the log and may still be applied. -/
  | applyTimeout (waited : Duration)
  /-- The log engine dropped or refused the entry. -/
  | replication (text : String)
  /-- The state machine refused the entry. -/
  | rejected (reason : String)
  /-- The store failed. -/
  | storage (text : String)
  /-- The key is not bound. -/
  | keyNotFound
  /-- Bytes that do not hold what they should. -/
  | serialization (text : String)
  /-- A connection failed. -/
  | network (text : String)
  /-- A setting that a node cannot run with. -/
  | config (text : String)
  deriving DecidableEq, Repr

namespace Fault

/-- The wording of a fault. -/
def message : Fault → String
  | endOfInput => "IO error: unexpected end of file"
  | inputOutput text => s!"IO error: {text}"
  | noCommand => "no command provided"
  | unknownCommand name => s!"unknown command '{name}'"
  | wrongArity name => s!"wrong number of arguments for '{name}' command"
  | protocol text => s!"Protocol error: {text}"
  | leaderUnknown => "leader is unknown"
  | addressUnknown node => s!"no client address recorded for node '{node}'"
  | notLeader => "node is not the leader"
  | applyTimeout waited =>
    let millis := waited.millis
    s!"apply timed out after {millis}ms; write outcome is unknown"
  | replication text => s!"replication failed: {text}"
  | rejected reason => reason
  | storage text => s!"Storage error: {text}"
  | keyNotFound => "key not found"
  | serialization text => s!"Serialization error: {text}"
  | network text => s!"Network error: {text}"
  | config text => s!"Configuration error: {text}"

/-- Whether the write that failed this way may still take effect. -/
def isAmbiguous : Fault → Bool
  | applyTimeout _ => true
  | _ => false

/-- Whether the fault lies in what the client sent. -/
def isProtocol : Fault → Bool
  | noCommand | unknownCommand _ | wrongArity _ | protocol _ => true
  | _ => false

end Fault

end LogKv
