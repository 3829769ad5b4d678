import LogKv.Decimal
import LogKv.Resp.Fault

/-!
The parts that frames are made of: lines, length headers, and bulk strings. Each reader takes its
part off the front of a stream and returns it with the bytes after it. A reader that succeeds
leaves a shorter stream.
-/

namespace LogKv.Resp

/-- The most bytes on a line, the line feed not counted. -/
def maxLine : Nat := 64 * 1024

/-- The most bytes in a bulk string. -/
def maxBulk : Nat := 16 * 1024 * 1024

/-- The most elements in an array. -/
def maxCount : Nat := 1024 * 1024

/-- A line without one carriage return at its end. -/
def dropReturn (line : Bytes) : Bytes :=
  if line.getLast? = some Ascii.carriageReturn then line.dropLast else line

/-- Whether a byte can stand on a line: any byte but the line feed that ends it. -/
def onLine (b : UInt8) : Bool := b != Ascii.lineFeed

/-- Takes a line off a stream. A line ends with a line feed; one carriage return right before it
belongs to the line's end too. -/
def readLine (s : Bytes) : Except Fault (Bytes × Bytes) :=
  let line := s.takeWhile onLine
  if maxLine < line.length then .error .lineTooLong
  else
    match s.dropWhile onLine with
    | [] => .error .endOfInput
    | _ :: rest => .ok (dropReturn line, rest)

/-- The number that follows the first byte of a header. -/
def readLength (digits : Bytes) : Except Fault Int :=
  match Decimal.read? digits with
  | some n => .ok n
  | none => .error (.badLength digits)

/-- A header line: the byte that says what follows, and a number. -/
def header (kind : UInt8) (n : Int) : Bytes := kind :: Decimal.write n ++ Bytes.crlf

/-- Takes the `length` bytes of a bulk string and their terminator off a stream. -/
def readBody (length : Nat) (s : Bytes) : Except Fault (Bytes × Bytes) :=
  match Bytes.cut? length s with
  | none => .error .endOfInput
  | some (body, rest) =>
    match rest with
    | a :: b :: rest =>
      if a = Ascii.carriageReturn ∧ b = Ascii.lineFeed then .ok (body, rest)
      else .error .unterminatedBulk
    | _ => .error .endOfInput

/-- A bulk string: its length, its bytes, and a terminator. -/
def bulk (body : Bytes) : Bytes := header Ascii.dollar body.length ++ body ++ Bytes.crlf

theorem dropReturn_length (line : Bytes) : (dropReturn line).length ≤ line.length := by
  unfold dropReturn
  split <;> simp

/-- A line and what follows it are shorter than the stream they come from. -/
theorem readLine_length {s line rest : Bytes} (h : readLine s = .ok (line, rest)) :
    line.length + rest.length < s.length := by
  have whole := congrArg List.length (List.takeWhile_append_dropWhile (p := onLine) (l := s))
  rw [List.length_append] at whole
  simp only [readLine] at h
  split at h
  · simp at h
  · split at h
    · simp at h
    · next feed after split =>
      obtain ⟨rfl, rfl⟩ := Prod.mk.inj (Except.ok.inj h)
      have := dropReturn_length (s.takeWhile onLine)
      rw [split, List.length_cons] at whole
      omega

/-- A bulk string's bytes and what follows its terminator are shorter than the stream. -/
theorem readBody_length {length : Nat} {s body rest : Bytes}
    (h : readBody length s = .ok (body, rest)) : s.length = length + 2 + rest.length := by
  unfold readBody at h
  split at h
  · simp at h
  · next body' after cut =>
    obtain ⟨rfl, sized⟩ := Bytes.cut?_eq_some_iff.1 cut
    split at h
    · split at h
      · obtain ⟨rfl, rfl⟩ := Prod.mk.inj (Except.ok.inj h)
        simp only [List.length_append, List.length_cons, sized]
        omega
      · simp at h
    · simp at h

end LogKv.Resp
