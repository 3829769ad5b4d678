import LogKv.Resp.Command
import LogKv.Resp.Reply

/-!
Reading a stream item by item until the first fault. Every item uses up part of the stream, so the
reading ends, and it always ends with a fault: at the latest, the end of the input.
-/

namespace LogKv.Resp

/-- A way to take one item off the front of a stream that always uses up part of it. -/
structure Reader (α : Type) where
  /-- Takes one item, and gives the bytes after it. -/
  read : Bytes → Except Fault (α × Bytes)
  /-- What is left is shorter than what there was. -/
  shortens {s rest : Bytes} {a : α} : read s = .ok (a, rest) → rest.length < s.length

/-- Commands, as a node reads them. -/
def commands : Reader Command := ⟨readCommand, readCommand_length⟩

/-- Replies, as a client reads them. -/
def replies : Reader Reply := ⟨readReply, readReply_length⟩

namespace Reader

variable {α : Type}

/-- Reads the items of `s` after those already found, which are listed latest first. -/
def readAllAfter (reader : Reader α) (found : List (α × Bytes)) (s : Bytes) :
    List (α × Bytes) × Fault :=
  match _taken : reader.read s with
  | .error fault => (found.reverse, fault)
  | .ok (a, rest) => reader.readAllAfter ((a, rest) :: found) rest
termination_by s.length
decreasing_by exact reader.shortens _taken

/-- All items up to the first fault, each with the bytes after it, and that fault. -/
def readAll (reader : Reader α) (s : Bytes) : List (α × Bytes) × Fault :=
  reader.readAllAfter [] s

theorem readAllAfter_eq (reader : Reader α) (found : List (α × Bytes)) (s : Bytes) :
    reader.readAllAfter found s =
      (found.reverse ++ (reader.readAll s).1, (reader.readAll s).2) := by
  unfold readAll
  induction hn : s.length using Nat.strongRecOn generalizing found s with
  | ind n ih =>
    subst hn
    unfold readAllAfter
    split
    · simp
    · next a rest taken =>
      rw [ih _ (reader.shortens taken) ((a, rest) :: found) _ rfl,
        ih _ (reader.shortens taken) [(a, rest)] _ rfl]
      simp

/-- A stream is its first item and then the items of the rest, or a fault. -/
theorem readAll_eq (reader : Reader α) (s : Bytes) :
    reader.readAll s =
      match reader.read s with
      | .error fault => ([], fault)
      | .ok (a, rest) => ((a, rest) :: (reader.readAll rest).1, (reader.readAll rest).2) := by
  rw [readAll, readAllAfter]
  split
  · simp_all
  · next taken => simp [readAllAfter_eq, taken]

/-- The items of a stream up to the first fault. -/
def items (reader : Reader α) (s : Bytes) : List α := (reader.readAll s).1.map Prod.fst

end Reader

end LogKv.Resp
