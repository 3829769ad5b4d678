import LogKv.Decimal
import LogKv.Fault
import LogKv.Text.Utf8

/-!
Addresses as a user writes them: a host and a port after the last colon.
-/

namespace LogKv.Client

/-- A host and a port. -/
structure Address where
  host : String
  port : Nat
  deriving DecidableEq, Repr

namespace Address

/-- The part of a text before the last colon and the part after it, if it has a colon. -/
def splitColon? (chars : List Char) : Option (List Char × List Char) :=
  match chars.reverse.dropWhile (· != ':') with
  | [] => none
  | _ :: host => some (host.reverse, (chars.reverse.takeWhile (· != ':')).reverse)

/-- A port number: digits, after a plus sign if there is one, of a value that fits 16 bits. -/
def port? (chars : List Char) : Option Nat :=
  match Decimal.unbounded? (Utf8.encode (String.ofList chars)) with
  | some (.ofNat n) => if n < 65536 ∧ chars.head? ≠ some '-' then some n else none
  | _ => none

/-- Reads an address. -/
def ofString (text : String) : Except Fault Address :=
  match splitColon? text.toList with
  | none => .error (.inputOutput "invalid socket address")
  | some (host, port) =>
    match port? port with
    | none => .error (.inputOutput "invalid port value")
    | some port => .ok ⟨String.ofList host, port⟩

end Address

end LogKv.Client
