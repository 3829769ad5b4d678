import LogKv.Command
import LogKv.Fault

/-!
Requests: commands that passed the check of their name and their number of operands. The check has
no side effects and comes before everything else. An unknown name is reported before a wrong
number of operands.
-/

namespace LogKv

/-- What a request asks for. -/
inductive Verb where
  /-- Read a key. -/
  | get
  /-- Bind a key. -/
  | set
  /-- Unbind a key. -/
  | del
  deriving DecidableEq, Repr

namespace Verb

/-- The verbs, in the order of the command table. -/
def all : List Verb := [get, set, del]

/-- The name on the wire. -/
def name : Verb → String
  | get => "GET"
  | set => "SET"
  | del => "DEL"

/-- The number of parts of a command with this verb, its name counted. -/
def arity : Verb → Nat
  | get => 2
  | set => 3
  | del => 2

/-- Whether the request goes through the log. -/
def isWrite : Verb → Bool
  | get => false
  | set | del => true

/-- The verb with this name. Names are compared as they are; a caller puts them in upper case. -/
def ofName? (name : String) : Option Verb := all.find? (·.name == name)

theorem ofName?_eq_some_iff {name : String} {verb : Verb} :
    ofName? name = some verb ↔ verb.name = name := by
  unfold ofName? all
  simp only [List.find?]
  constructor
  · intro h
    repeat' split at h
    all_goals simp_all
  · rintro rfl
    cases verb <;> rfl

end Verb

/-- A checked request. -/
inductive Request where
  /-- Read `key`. -/
  | get (key : Bytes)
  /-- Bind `key` to `value`. -/
  | set (key value : Bytes)
  /-- Unbind `key`. -/
  | del (key : Bytes)
  deriving DecidableEq, Repr

namespace Request

/-- What the request asks for. -/
def verb : Request → Verb
  | get _ => .get
  | set _ _ => .set
  | del _ => .del

/-- The key that the request is about. -/
def key : Request → Bytes
  | get key | set key _ | del key => key

/-- The command that asks for this request. -/
def command : Request → Command
  | get key => ⟨[Utf8.encode Verb.get.name, key]⟩
  | set key value => ⟨[Utf8.encode Verb.set.name, key, value]⟩
  | del key => ⟨[Utf8.encode Verb.del.name, key]⟩

/-- The most bytes of a command name that an error message repeats. -/
def maxEchoedName : Nat := 128

/-- A command name as it is looked up and repeated in messages: its first bytes, read as text, in
upper case. The names in the table are all shorter than the cut. -/
def shownName (name : Bytes) : String := Text.upper (Utf8.lossy (name.take maxEchoedName))

/-- The request with this verb and these operands, if their number is right. -/
def ofOperands? : Verb → List Bytes → Option Request
  | .get, [key] => some (get key)
  | .set, [key, value] => some (set key value)
  | .del, [key] => some (del key)
  | _, _ => none

/-- Checks a command. -/
def ofCommand (c : Command) : Except Fault Request :=
  match c.parts with
  | [] => .error .noCommand
  | name :: operands =>
    match Verb.ofName? (shownName name) with
    | none => .error (.unknownCommand (shownName name))
    | some verb =>
      match ofOperands? verb operands with
      | none => .error (.wrongArity (shownName name))
      | some request => .ok request

/-- The operands make a request exactly when there are as many as the verb takes. -/
theorem ofOperands?_isSome_iff {verb : Verb} {operands : List Bytes} :
    (ofOperands? verb operands).isSome ↔ operands.length + 1 = verb.arity := by
  unfold ofOperands? Verb.arity
  split
  · simp
  · simp
  · simp
  · next wrong₁ wrong₂ wrong₃ =>
    cases verb <;> simp only [Option.isSome_none, Bool.false_eq_true, false_iff] <;> intro h
    · match operands, h with
      | [key], _ => exact wrong₁ key rfl rfl
    · match operands, h with
      | [key, value], _ => exact wrong₂ key value rfl rfl
    · match operands, h with
      | [key], _ => exact wrong₃ key rfl rfl

end Request

end LogKv
