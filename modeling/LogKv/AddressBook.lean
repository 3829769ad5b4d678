import LogKv.Fault

/-!
The address book of a group: for each node, the address that clients should dial. A leader pointer
names only the address for other nodes, so redirects are looked up here.
-/

namespace LogKv

/-- Client addresses by node name, the latest registration first. -/
structure AddressBook where
  entries : List (String × String)
  deriving DecidableEq, Repr

namespace AddressBook

/-- The book without entries. -/
def empty : AddressBook := ⟨[]⟩

/-- Records the address of a node, in place of the one recorded before. -/
def register (node address : String) (book : AddressBook) : AddressBook :=
  ⟨(node, address) :: book.entries.filter (·.1 ≠ node)⟩

/-- The recorded address of a node, if there is one. -/
def find? (node : String) (book : AddressBook) : Option String := book.entries.lookup node

/-- The recorded address of a node. -/
def address (node : String) (book : AddressBook) : Except Fault String :=
  match book.find? node with
  | some address => .ok address
  | none => .error (.addressUnknown node)

end AddressBook

end LogKv
