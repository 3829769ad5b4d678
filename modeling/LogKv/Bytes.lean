/-!
Byte strings. Keys, values, log frames and everything on a wire are finite lists of bytes,
compared byte by byte; nothing about their content is assumed.
-/

namespace LogKv

/-- A finite string of bytes. -/
abbrev Bytes := List UInt8

/-! ## The bytes that framing gives a meaning -/

namespace Ascii

/-- Horizontal tab. -/
abbrev tab : UInt8 := 9

/-- Line feed. -/
abbrev lineFeed : UInt8 := 10

/-- Form feed. -/
abbrev formFeed : UInt8 := 12

/-- Carriage return. -/
abbrev carriageReturn : UInt8 := 13

/-- Space. -/
abbrev space : UInt8 := 32

/-- Dollar sign, which opens a bulk string. -/
abbrev dollar : UInt8 := 36

/-- Asterisk, which opens an array. -/
abbrev star : UInt8 := 42

/-- Plus sign, which opens a status line and may precede a number. -/
abbrev plus : UInt8 := 43

/-- Minus sign, which opens an error line and may precede a number. -/
abbrev minus : UInt8 := 45

/-- Colon, which opens an integer. -/
abbrev colon : UInt8 := 58

/-- The digit zero; the other nine digits follow it. -/
abbrev zero : UInt8 := 48

/-- The blanks that separate words on a line. A vertical tab is not one of them. -/
def isBlank (b : UInt8) : Bool :=
  b == space || b == tab || b == lineFeed || b == formFeed || b == carriageReturn

/-- A decimal digit. -/
def isDigit (b : UInt8) : Bool := zero ≤ b && b < 58

end Ascii

namespace Bytes

/-- The line terminator of the wire protocol. -/
def crlf : Bytes := [Ascii.carriageReturn, Ascii.lineFeed]

/-- The first `n` bytes and what follows them, when there are that many. -/
def cut? (n : Nat) (s : Bytes) : Option (Bytes × Bytes) :=
  match s.splitAt n with
  | (front, rest) => if front.length = n then some (front, rest) else none

/-- Cutting finds the one way to split a string after `n` bytes. -/
theorem cut?_eq_some_iff {n : Nat} {s a r : Bytes} :
    cut? n s = some (a, r) ↔ s = a ++ r ∧ a.length = n := by
  simp only [cut?, List.splitAt_eq]
  constructor
  · intro h
    split at h
    · next hn =>
      obtain ⟨rfl, rfl⟩ := Prod.mk.inj (Option.some.inj h)
      exact ⟨(List.take_append_drop n s).symm, hn⟩
    · simp at h
  · rintro ⟨rfl, rfl⟩
    simp

/-- Cutting fails exactly on strings that are too short. -/
theorem cut?_eq_none_iff {n : Nat} {s : Bytes} : cut? n s = none ↔ s.length < n := by
  simp only [cut?, List.splitAt_eq, List.length_take, ite_eq_right_iff, reduceCtorEq, imp_false]
  omega

/-- The words of a line: its maximal runs of bytes that are not blank, in order. -/
def words (line : Bytes) : List Bytes :=
  (line.splitOnP Ascii.isBlank).filter (· ≠ [])

end Bytes

end LogKv
