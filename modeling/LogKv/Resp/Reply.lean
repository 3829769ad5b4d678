import LogKv.Reply
import LogKv.Resp.Line

/-!
Replies on the wire. A status or an error is one line of text, so line breaks inside it are shown
as spaces; a value travels as a bulk string and may hold anything.
-/

namespace LogKv.Resp

/-- A text without line breaks: each one is shown as a space. -/
def singleLine (text : String) : String :=
  String.ofList (text.toList.map fun c => if c = '\r' ∨ c = '\n' then ' ' else c)

/-- The bytes of a reply. -/
def encodeReply : Reply → Bytes
  | .status text => Ascii.plus :: Utf8.encode (singleLine text) ++ Bytes.crlf
  | .error text => Ascii.minus :: Utf8.encode (singleLine text) ++ Bytes.crlf
  | .integer n => header Ascii.colon n.toInt
  | .value bytes => bulk bytes
  | .null => header Ascii.dollar (-1)

/-- Takes the next reply off a stream. A bulk string or an array of a negative length is the
absence of a value. -/
def readReply (s : Bytes) : Except Fault (Reply × Bytes) :=
  match readLine s with
  | .error fault => .error fault
  | .ok ([], _) => .error .emptyReply
  | .ok (kind :: line, rest) =>
    if kind = Ascii.plus then .ok (.status (Utf8.lossy line), rest)
    else if kind = Ascii.minus then .ok (.error (Utf8.lossy line), rest)
    else if kind = Ascii.colon then
      match readLength line with
      | .error fault => .error fault
      | .ok n => .ok (.integer (Int64.ofInt n), rest)
    else if kind = Ascii.dollar then
      match readLength line with
      | .error fault => .error fault
      | .ok length =>
        if length < 0 then .ok (.null, rest)
        else if maxBulk < length then .error (.badBulkLength length)
        else
          match readBody length.toNat rest with
          | .error fault => .error fault
          | .ok (bytes, rest) => .ok (.value bytes, rest)
    else if kind = Ascii.star then
      match readLength line with
      | .error fault => .error fault
      | .ok length => if length < 0 then .ok (.null, rest) else .error .arrayReply
    else .error (.unknownReplyKind kind)

/-- Behind the line of a bulk string, reading goes on. -/
theorem readReply_dollar {s digits rest : Bytes}
    (line : readLine s = .ok (Ascii.dollar :: digits, rest)) :
    readReply s =
      match readLength digits with
      | .error fault => .error fault
      | .ok length =>
        if length < 0 then .ok (.null, rest)
        else if maxBulk < length then .error (.badBulkLength length)
        else
          match readBody length.toNat rest with
          | .error fault => .error fault
          | .ok (bytes, rest) => .ok (.value bytes, rest) := by
  rw [readReply, line]
  rfl

/-- Reading a reply uses up part of the stream. -/
theorem readReply_length {s rest : Bytes} {r : Reply}
    (h : readReply s = .ok (r, rest)) : rest.length < s.length := by
  unfold readReply at h
  split at h
  · simp at h
  · simp at h
  · next taken =>
    have shorter := readLine_length taken
    repeat' split at h
    all_goals simp only [Except.ok.injEq, Prod.mk.injEq, reduceCtorEq] at h
    all_goals obtain ⟨rfl, rfl⟩ := h
    all_goals try omega
    next read =>
      have := readBody_length read
      omega

end LogKv.Resp
