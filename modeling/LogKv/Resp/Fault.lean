import LogKv.Fault
import LogKv.Text.Utf8

/-!
What can be wrong with the framing of a stream. Only `endOfInput` can be mended by more input;
every other fault condemns the stream.
-/

namespace LogKv.Resp

/-- Why no command, or no reply, stands at the front of a stream. -/
inductive Fault where
  /-- The stream ends before the frame does. -/
  | endOfInput
  /-- A line is longer than a line may be. -/
  | lineTooLong
  /-- A length that is no signed 64-bit number. -/
  | badLength (digits : Bytes)
  /-- An array of more elements than allowed. -/
  | badCount (count : Int)
  /-- A bulk string of a negative length, or longer than allowed. -/
  | badBulkLength (length : Int)
  /-- An array element that does not open with a dollar sign, but with this byte, if any. -/
  | notBulk (found : Option UInt8)
  /-- A bulk string without a line terminator after its last byte. -/
  | unterminatedBulk
  /-- A reply that is an empty line. -/
  | emptyReply
  /-- A reply that is an array. -/
  | arrayReply
  /-- A reply that opens with a byte of no known kind. -/
  | unknownReplyKind (found : UInt8)
  deriving DecidableEq, Repr

namespace Fault

/-- The character that shows a byte in a message: the one of the same number. -/
def shownByte (b : UInt8) : Char := Char.ofNat b.toNat

/-- The wording of a framing fault. -/
def message : Fault → String
  | endOfInput => "unexpected end of file"
  | lineTooLong => "too big inline request"
  | badLength digits =>
    let shown := Utf8.lossy digits
    s!"invalid length '{shown}'"
  | badCount count => s!"invalid multibulk length {count}"
  | badBulkLength length => s!"invalid bulk length {length}"
  | notBulk found =>
    let shown := (found.map shownByte).getD ' '
    s!"expected '$', got '{shown}'"
  | unterminatedBulk => "bulk string not terminated by CRLF"
  | emptyReply => "empty reply line"
  | arrayReply => "unexpected array reply"
  | unknownReplyKind found =>
    let shown := shownByte found
    s!"unexpected reply type '{shown}'"

/-- The fault that a reader of the stream reports. -/
def toFault : Fault → LogKv.Fault
  | endOfInput => .endOfInput
  | fault => .protocol fault.message

end Fault

end LogKv.Resp
