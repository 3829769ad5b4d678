import LogKv.Bytes
import LogKv.Fault

/-!
The way back from the log to a submitter. A submitted entry has a delivery, which is owed until
the log delivers a result or drops the entry; what comes first stays. Waiting ends at a deadline: a
result that is there by then wins over a deadline that has passed, and so does an entry that was
dropped.
-/

namespace LogKv

/-- What the log gives back for an entry: the response of the state machine, or a fault. -/
abbrev LogResult := Except Fault Bytes

/-- The state of the way back from the log. -/
inductive Delivery where
  /-- Nothing has come yet. -/
  | owed
  /-- The result is there. -/
  | delivered (result : LogResult)
  /-- The log will not deliver anything any more. -/
  | dropped

namespace Delivery

/-- Delivers a result, if one is owed. -/
def resolve? (result : LogResult) : Delivery → Option Delivery
  | owed => some (delivered result)
  | _ => none

/-- Drops the entry, if a result is owed. -/
def drop? : Delivery → Option Delivery
  | owed => some dropped
  | _ => none

/-- The delivery once a result was delivered, which changes it only if one was owed. -/
def resolve (result : LogResult) (d : Delivery) : Delivery := (d.resolve? result).getD d

/-- The delivery once the entry was dropped, which changes it only if a result was owed. -/
def drop (d : Delivery) : Delivery := d.drop?.getD d

@[simp] theorem resolve_owed (result : LogResult) : owed.resolve result = delivered result := rfl

@[simp] theorem drop_owed : owed.drop = dropped := rfl

@[simp] theorem drop_dropped : dropped.drop = dropped := rfl

/-- What someone gets who has waited for `timeout` and finds the delivery in this state. -/
def afterWaiting (timeout : Duration) : Delivery → LogResult
  | owed => .error (.applyTimeout timeout)
  | delivered result => result
  | dropped => .error (.replication "entry dropped before it was applied")

end Delivery

end LogKv
