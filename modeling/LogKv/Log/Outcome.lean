import LogKv.Fault
import LogKv.Log.Layout

/-!
Outcomes: what a state machine reports for one applied entry, and the bytes that carry the report
back to whoever submitted the entry.
-/

namespace LogKv

/-- The report on one applied entry. -/
inductive Outcome where
  /-- The entry took effect. -/
  | applied (value : Option Bytes)
  /-- The entry deletes a key that is not bound. -/
  | notFound
  /-- The entry was refused. -/
  | rejected (reason : String)
  deriving DecidableEq, Repr

namespace Outcome

/-- The bytes of a report. -/
def encode : Outcome → Bytes
  | applied value => Layout.variant 0 ++ Layout.optional value
  | notFound => Layout.variant 1 ++ Layout.variant 0
  | rejected reason => Layout.variant 1 ++ (Layout.variant 1 ++ Layout.text reason)

/-- Takes the rest of a report of failure off a byte string. -/
def readFailure : Layout.Read Outcome := fun s =>
  match Layout.readVariant 2 s with
  | .error fault => .error fault
  | .ok (0, rest) => .ok (notFound, rest)
  | .ok (_, rest) =>
    match Layout.readText rest with
    | .error fault => .error fault
    | .ok (reason, rest) => .ok (rejected reason, rest)

/-- Takes a report off a byte string. -/
def read : Layout.Read Outcome := fun s =>
  match Layout.readVariant 2 s with
  | .error fault => .error fault
  | .ok (0, rest) =>
    match Layout.readOptional rest with
    | .error fault => .error fault
    | .ok (value, rest) => .ok (applied value, rest)
  | .ok (_, rest) => readFailure rest

/-- The report that a byte string starts with. -/
def decode (s : Bytes) : Except Layout.Fault Outcome := (read s).map Prod.fst

/-- What a report means for the submitter: the value it carries, or a fault. -/
def result : Outcome → Except Fault (Option Bytes)
  | applied value => .ok value
  | notFound => .error .keyNotFound
  | rejected reason => .error (.rejected reason)

/-- What the bytes of a report mean for the submitter. -/
def resultOf (raw : Bytes) : Except Fault (Option Bytes) :=
  match decode raw with
  | .error fault => .error (.serialization fault.message)
  | .ok outcome => outcome.result

end Outcome

end LogKv
