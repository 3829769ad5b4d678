import LogKv.Replica

/-!
A replica whose log answers as it was told beforehand. It shows how commands are answered whatever
a log may do: respond, respond with rubbish, fail, stay silent, or drop the entry.
-/

namespace LogKv

/-- What a rehearsed log does with a submission. -/
inductive Cue where
  /-- Responds with the bytes of an outcome. -/
  | outcome (outcome : Outcome)
  /-- Responds with these bytes. -/
  | raw (bytes : Bytes)
  /-- Fails. -/
  | fail (fault : Fault)
  /-- Never answers. -/
  | hang
  /-- Drops the entry. -/
  | drop
  /-- Hands the entry to the key-value state machine. -/
  | apply
  deriving DecidableEq, Repr

/-- A node with a rehearsed log. -/
structure Rehearsed (σ : Type) where
  role : Role
  leader : Option Leader
  /-- What the log does with the next submissions. After that it applies them. -/
  script : List Cue
  /-- The frames submitted so far, latest first. -/
  submitted : List Bytes
  /-- The store. -/
  state : σ

namespace Rehearsed

variable {σ : Type}

/-- A leader, without a leader pointer, that applies what is submitted. -/
def start (state : σ) : Rehearsed σ := ⟨.leader, none, [], [], state⟩

/-- Takes a submission as the script says. -/
def propose (storage : Storage σ) (timeout : Duration) (r : Rehearsed σ) (frame : Bytes) :
    LogResult × Rehearsed σ :=
  let cue := r.script.headD .apply
  let r := { r with script := r.script.tail, submitted := frame :: r.submitted }
  match cue with
  | .outcome outcome => (.ok outcome.encode, r)
  | .raw bytes => (.ok bytes, r)
  | .fail fault => (.error fault, r)
  | .hang => (Delivery.owed.afterWaiting timeout, r)
  | .drop => (Delivery.dropped.afterWaiting timeout, r)
  | .apply =>
    match KeyValue.respond storage r.state frame with
    | (response, state) => (.ok response, { r with state := state })

/-- The rehearsed node as a replica. -/
def replica (storage : Storage σ) (timeout : Duration) : Replica (Rehearsed σ) where
  role := role
  leader := leader
  read r key := storage.get r.state key
  propose := propose storage timeout

end Rehearsed

end LogKv
