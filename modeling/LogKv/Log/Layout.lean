import LogKv.Text.Utf8

/-!
The binary layout of what the log carries: little-endian words of fixed width, byte strings and
texts after their length in a 64-bit word, optional parts after a tag byte, and alternatives after
a 32-bit number. Each part has a writer and a reader. A reader takes its part off the front of a
byte string and returns it with the bytes after it.
-/

namespace LogKv.Layout

/-- Why bytes do not hold a part. -/
inductive Fault where
  /-- The bytes end before a word, a tag, or a byte string does. -/
  | endOfData
  /-- The length of a text is there, but the bytes end before the text does. -/
  | endOfText
  /-- The number of an alternative is not below the number of alternatives. -/
  | badVariant (found bound : Nat)
  /-- The tag of an optional part is neither 0 nor 1. -/
  | badOption (found : Nat)
  /-- A text is not written in UTF-8. -/
  | badText (fault : Utf8.Fault)
  deriving DecidableEq, Repr

/-- The wording of a layout fault. -/
def Fault.message : Fault → String
  | endOfData => "io error: unexpected end of file"
  | endOfText => "io error: "
  | badVariant found bound =>
    s!"invalid value: integer `{found}`, expected variant index 0 <= i < {bound}"
  | badOption found => s!"tag for enum is not valid, found {found}"
  | badText fault =>
    let reason := fault.message
    s!"string is not valid utf8: {reason}"

/-- A part at the front of a byte string, and the bytes after it. -/
abbrev Read (α : Type) := Bytes → Except Fault (α × Bytes)

/-- The low `width` bytes of a number, lowest first. -/
def word : Nat → Nat → Bytes
  | 0, _ => []
  | width + 1, n => UInt8.ofNat n :: word width (n / 256)

/-- The number whose bytes, lowest first, are these. -/
def wordValue (bytes : Bytes) : Nat := bytes.foldr (fun b n => b.toNat + 256 * n) 0

/-- Takes a number of `width` bytes. -/
def readWord (width : Nat) : Read Nat := fun s =>
  match Bytes.cut? width s with
  | none => .error .endOfData
  | some (bytes, rest) => .ok (wordValue bytes, rest)

/-- The number of an alternative. -/
def variant (n : Nat) : Bytes := word 4 n

/-- Takes the number of one of `bound` alternatives. -/
def readVariant (bound : Nat) : Read Nat := fun s =>
  match readWord 4 s with
  | .error fault => .error fault
  | .ok (n, rest) => if n < bound then .ok (n, rest) else .error (.badVariant n bound)

/-- A byte string after its length. -/
def sized (bytes : Bytes) : Bytes := word 8 bytes.length ++ bytes

/-- Takes a byte string. -/
def readSized : Read Bytes := fun s =>
  match readWord 8 s with
  | .error fault => .error fault
  | .ok (length, rest) =>
    match Bytes.cut? length rest with
    | none => .error .endOfData
    | some (bytes, rest) => .ok (bytes, rest)

/-- An optional byte string after its tag. -/
def optional : Option Bytes → Bytes
  | none => [0]
  | some bytes => 1 :: sized bytes

/-- Takes an optional byte string. -/
def readOptional : Read (Option Bytes)
  | [] => .error .endOfData
  | tag :: s =>
    if tag = 0 then .ok (none, s)
    else if tag = 1 then
      match readSized s with
      | .error fault => .error fault
      | .ok (bytes, rest) => .ok (some bytes, rest)
    else .error (.badOption tag.toNat)

/-- A text after its length in bytes. -/
def text (t : String) : Bytes := sized (Utf8.encode t)

/-- Takes a text. -/
def readText : Read String := fun s =>
  match readWord 8 s with
  | .error fault => .error fault
  | .ok (length, rest) =>
    match Bytes.cut? length rest with
    | none => .error .endOfText
    | some (bytes, rest) =>
      match Utf8.decode bytes with
      | .error fault => .error (.badText fault)
      | .ok t => .ok (t, rest)

theorem word_length (width n : Nat) : (word width n).length = width := by
  induction width generalizing n with
  | zero => rfl
  | succ width ih => simp [word, ih]

end LogKv.Layout
