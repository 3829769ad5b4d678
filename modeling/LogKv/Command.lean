import LogKv.Text.Upper
import LogKv.Text.Utf8

/-!
Commands as they come off a wire, before anything is known about their shape.
-/

namespace LogKv

/-- A list of byte strings. The first one, if any, names the command and the others are its
operands. -/
structure Command where
  /-- The name and the operands. -/
  parts : List Bytes
  deriving DecidableEq, Repr

namespace Command

/-- The command with nothing in it, not even a name. -/
def empty : Command := ⟨[]⟩

/-- The command's name in upper case, if it has one. Bytes that are no text show as replacement
characters. -/
def name? (c : Command) : Option String :=
  c.parts.head?.map fun name => Text.upper (Utf8.lossy name)

end Command

end LogKv
