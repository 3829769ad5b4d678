import LogKv.Bytes
import LogKv.Fault

/-!
Replies to commands. A redirect is an error reply of a certain form; a client reads the leader's
address out of it (`redirectAddress?`).
-/

namespace LogKv

/-- The answer to one command. -/
inductive Reply where
  /-- A status. -/
  | status (text : String)
  /-- A failure or a redirect, which starts with a word that says which. -/
  | error (text : String)
  /-- A 64-bit number. -/
  | integer (n : Int64)
  /-- A value. -/
  | value (bytes : Bytes)
  /-- The absence of a value. -/
  | null
  deriving DecidableEq, Repr

namespace Reply

/-- The status of a write that took effect. -/
def ok : Reply := .status "OK"

/-- A failure with this description. -/
def failure (description : String) : Reply := .error s!"ERR {description}"

/-- The reply that reports a fault. -/
def ofFault (fault : Fault) : Reply := failure fault.message

/-- Every redirect carries this number, because keys are not divided among nodes. -/
def redirectIndex : Int := -1

/-- A redirect to a client address. -/
def moved (address : String) : Reply := .error s!"MOVED {redirectIndex} {address}"

/-- Whether the reply is a failure or a redirect. -/
def isError : Reply → Bool
  | error _ => true
  | _ => false

/-- The part of a text after its first space, if it has one, and the part before it. -/
def splitSpace (chars : List Char) : List Char × Option (List Char) :=
  match chars.dropWhile (· != ' ') with
  | [] => (chars, none)
  | _ :: rest => (chars.takeWhile (· != ' '), some rest)

/-- The address in a redirect: what follows the second space of an error text whose first word is
`MOVED`. It may contain spaces itself, and may be empty. -/
def redirectAddress? : Reply → Option String
  | error text =>
    match splitSpace text.toList with
    | (word, some rest) =>
      if word = "MOVED".toList then (splitSpace rest).2.map String.ofList else none
    | _ => none
  | _ => none

end Reply

end LogKv
