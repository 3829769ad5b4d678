import LogKv.Log.Entry
import LogKv.Log.Outcome
import LogKv.Storage

/-!
State machines, and the one that keeps keys and values. The log hands a state machine its entries
one by one; for each it answers with a response, which travels back to the submitter unread.
-/

namespace LogKv

/-- What a log drives. -/
structure StateMachine (σ : Type) where
  /-- Applies the data of the entry at an index: the response and the next state, or `none` when
  the machine breaks down. -/
  apply : σ → Nat → Bytes → Option (Bytes × σ)

namespace KeyValue

variable {σ : Type} (storage : Storage σ)

/-- The fault of a put that carries no value. No frame is read as such a put. -/
def valueless : Fault := .rejected "put entry carries no value"

/-- Carries out the write that a record lays out. -/
def write (s : σ) (r : Record) : Except Fault σ :=
  match r.operation, r.value with
  | .put, some value => storage.put s r.key value
  | .delete, _ => storage.delete s r.key
  | .put, none => .error valueless

/-- Carries out the write in a frame, and reports how it went. A frame that cannot be read, and a
write that the store fails, are refused with the wording of the fault, and leave the store as it
was. -/
def report (s : σ) (frame : Bytes) : Outcome × σ :=
  match Entry.recordIn frame with
  | .error fault => (.rejected fault.toFault.message, s)
  | .ok r =>
    match write storage s r with
    | .ok s => (.applied none, s)
    | .error .keyNotFound => (.notFound, s)
    | .error fault => (.rejected fault.message, s)

/-- The bytes of the report on a frame, and the store after it. -/
def respond (s : σ) (frame : Bytes) : Bytes × σ :=
  match report storage s frame with
  | (outcome, s) => (outcome.encode, s)

/-- The state machine over a store. It never breaks down. -/
def machine : StateMachine σ := ⟨fun s _ frame => some (respond storage s frame)⟩

end KeyValue

end LogKv
