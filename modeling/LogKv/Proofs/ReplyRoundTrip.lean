import LogKv.Proofs.EncodedStreams
import LogKv.Proofs.ShownText

/-! Replies survive the wire, and none can pass for two. A text is sent on one
line with its line breaks shown as spaces, a value is sent as it is, and the
replies of a stream come back in order, each from its own encoding; a text that
does not fit on a line and a value that is too long are refused. -/
namespace LogKv

/-! ## Texts on a line -/

namespace Utf8

/-- Only a line feed has the byte of a line feed among its own. -/
theorem eq_of_lineFeed_mem {c : Char} (member : Ascii.lineFeed ∈ String.utf8EncodeChar c) :
    c = '\n' := by
  have back : Char.ofNat c.val.toNat = c := Char.ofNat_toNat c
  change (10 : UInt8) ∈ String.utf8EncodeChar c at member
  unfold String.utf8EncodeChar at member
  generalize c.val.toNat = v at member back
  dsimp only at member
  by_cases one : v ≤ 127
  · rw [if_pos one, List.mem_singleton, ← UInt8.toNat_inj, UInt8.toNat_ofNat'] at member
    have code : v = 10 := by
      simp only [UInt8.reduceToNat] at member
      omega
    rw [← back, code]
  · -- The bytes of every other character have their highest bit set.
    exfalso
    rw [if_neg one] at member
    repeat' split at member
    all_goals
      simp only [List.mem_cons, List.not_mem_nil, or_false, ← UInt8.toNat_inj,
        UInt8.toNat_ofNat', UInt8.reduceToNat] at member
      omega

theorem encode_unbroken {text : String} (unbroken : '\n' ∉ text.toList) :
    Ascii.lineFeed ∉ encode text := by
  intro member
  obtain ⟨c, inside, member⟩ := List.mem_flatMap.mp member
  exact unbroken (eq_of_lineFeed_mem member ▸ inside)

end Utf8

namespace Text

/-- The text with a space for each carriage return and each line feed. -/
def flat (text : String) : String :=
  text.map fun c => if c = '\r' ∨ c = '\n' then ' ' else c

theorem flat_unbroken (text : String) : '\n' ∉ (flat text).toList := by
  rw [flat, String.toList_map, List.mem_map]
  rintro ⟨c, -, shown⟩
  split at shown
  · exact absurd shown (by decide)
  · next kept => exact kept (.inr shown)

theorem flat_size (text : String) : (flat text).utf8ByteSize = text.utf8ByteSize := by
  have same (c : Char) : (if c = '\r' ∨ c = '\n' then ' ' else c).utf8Size = c.utf8Size := by
    split
    · next broken => rcases broken with rfl | rfl <;> rfl
    · rfl
  rw [← Utf8.encode_length, ← Utf8.encode_length, Utf8.encode, Utf8.encode, flat,
    String.toList_map]
  simp only [List.length_flatMap, List.map_map, Function.comp_def, String.length_utf8EncodeChar,
    same]

theorem flat_append (front back : String) : flat (front ++ back) = flat front ++ flat back := by
  apply String.toList_inj.mp
  simp only [flat, String.toList_map, String.toList_append, List.map_append]

theorem flat_eq_self {text : String} (unbroken : '\r' ∉ text.toList ∧ '\n' ∉ text.toList) :
    flat text = text := by
  apply String.toList_inj.mp
  rw [flat, String.toList_map]
  refine (List.map_congr_left ?_).trans (List.map_id _)
  intro c member
  apply if_neg
  rintro (rfl | rfl)
  · exact unbroken.1 member
  · exact unbroken.2 member

end Text

/-! ## Replies -/

/-- A reply that can be sent: a text that fits on a line behind the byte of its kind, or a value
that is short enough. -/
def Reply.Sendable : Reply → Prop
  | .status text | .error text => text.utf8ByteSize ≤ Resp.maxLine - 2
  | .value bytes => bytes.length ≤ Resp.maxBulk
  | .integer _ | .null => True

instance : DecidablePred Reply.Sendable
  | .status text | .error text =>
    inferInstanceAs (Decidable (text.utf8ByteSize ≤ Resp.maxLine - 2))
  | .value bytes => inferInstanceAs (Decidable (bytes.length ≤ Resp.maxBulk))
  | .integer _ | .null => .isTrue trivial

/-- The reply with its text, if it has one, on one line. -/
def Reply.flat : Reply → Reply
  | .status text => .status (Text.flat text)
  | .error text => .error (Text.flat text)
  | .integer n => .integer n
  | .value bytes => .value bytes
  | .null => .null

namespace Resp

theorem singleLine_eq_flat (text : String) : singleLine text = Text.flat text := by
  rw [singleLine, Text.flat, ← String.ofList_toList (s := text.map _), String.toList_map]

theorem readLine_status (kind : UInt8) (visible : Ascii.lineFeed ≠ kind) (text : String)
    (rest : Bytes) :
    readLine (kind :: Utf8.encode (singleLine text) ++ Bytes.crlf ++ rest) =
      if maxLine - 2 < text.utf8ByteSize then .error .lineTooLong
      else .ok (kind :: Utf8.encode (Text.flat text), rest) := by
  have unbroken := List.not_mem_cons_of_ne_of_not_mem visible
    (Utf8.encode_unbroken (Text.flat_unbroken text))
  have length : (kind :: Utf8.encode (Text.flat text)).length = text.utf8ByteSize + 1 := by
    rw [List.length_cons, Utf8.encode_length, Text.flat_size]
  rw [singleLine_eq_flat, readLine_crlf unbroken, length]
  refine if_congr ?_ rfl rfl
  simp only [maxLine]
  omega

theorem readReply_bulk {front body : Bytes} (holds : HoldsBulk front body) (rest : Bytes) :
    readReply (front ++ rest) = .ok (.value body, rest) := by
  cases holds with
  | @mk header digits body line length short =>
    have taken : readBody body.length (body ++ (Bytes.crlf ++ rest)) = .ok (body, rest) := by
      rw [← List.append_assoc]
      exact (readBody_reads body.length).ok ⟨rfl, rfl⟩ rest
    have some : ¬(body.length : Int) < 0 := by omega
    have few : ¬(maxBulk : Int) < body.length := by omega
    rw [List.append_assoc, List.append_assoc, readReply_dollar (readLine_reads.ok line _),
      readLength_eq_ok_iff.mpr length]
    simp only [if_neg some, if_neg few, Int.toNat_natCast, taken]

theorem readReply_encode {r : Reply} (sendable : r.Sendable) (rest : Bytes) :
    readReply (encodeReply r ++ rest) = .ok (r.flat, rest) := by
  cases r with
  | status text =>
    have line := readLine_status Ascii.plus (by decide) text rest
    rw [if_neg (Nat.not_lt.mpr sendable)] at line
    rw [encodeReply, readReply, line]
    simp only [if_true, Utf8.lossy_encode, Reply.flat]
  | error text =>
    have line := readLine_status Ascii.minus (by decide) text rest
    rw [if_neg (Nat.not_lt.mpr sendable)] at line
    have kind : Ascii.minus ≠ Ascii.plus := by decide
    rw [encodeReply, readReply, line]
    simp only [if_neg kind, if_true, Utf8.lossy_encode, Reply.flat]
  | integer n =>
    have line : HoldsLine (header Ascii.colon n.toInt) _ :=
      holdsLine_header _ (by decide) n.le_toInt n.toInt_lt
    have length := readLength_eq_ok_iff.mpr (Decimal.write_numeral n.le_toInt n.toInt_lt)
    have kind : Ascii.colon ≠ Ascii.plus ∧ Ascii.colon ≠ Ascii.minus := by decide
    rw [encodeReply, readReply, readLine_reads.ok line]
    simp only [if_neg kind.1, if_neg kind.2, if_true, length, Int64.ofInt_toInt, Reply.flat]
  | value bytes =>
    exact readReply_bulk (holdsBulk_bulk sendable) rest
  | null =>
    have line : HoldsLine (header Ascii.dollar (-1)) _ :=
      holdsLine_header _ (by decide) (by decide) (by decide)
    have length : readLength (Decimal.write (-1)) = .ok (-1) := by decide
    rw [encodeReply, readReply_dollar (readLine_reads.ok line rest), length]
    rfl

theorem readReply_of_not_sendable {r : Reply} (beyond : ¬r.Sendable) (rest : Bytes) :
    Refuses readReply (encodeReply r ++ rest) := by
  cases r with
  | status text =>
    have line := readLine_status Ascii.plus (by decide) text rest
    rw [if_pos (Nat.not_le.mp beyond)] at line
    rw [Refuses, encodeReply, readReply, line]
    exact ⟨_, rfl, by simp⟩
  | error text =>
    have line := readLine_status Ascii.minus (by decide) text rest
    rw [if_pos (Nat.not_le.mp beyond)] at line
    rw [Refuses, encodeReply, readReply, line]
    exact ⟨_, rfl, by simp⟩
  | value bytes =>
    have long : maxBulk < bytes.length := Nat.not_le.mp beyond
    have line := readLine_header Ascii.dollar (by decide) bytes.length
      (bytes ++ (Bytes.crlf ++ rest))
    rw [Refuses, encodeReply, bulk, List.append_assoc, List.append_assoc]
    rcases line with line | line
    · rw [readReply, line]
      exact ⟨_, rfl, by simp⟩
    · rw [readReply_dollar line]
      rcases readLength_write bytes.length with length | length
      · rw [length]
        refine ⟨.badBulkLength bytes.length, ?_, by simp⟩
        simp only [if_neg (Int.not_lt.mpr (Int.natCast_nonneg bytes.length))]
        exact if_pos (Int.ofNat_lt.mpr long)
      · rw [length]
        exact ⟨_, rfl, by simp⟩
  | integer n => exact absurd trivial beyond
  | null => exact absurd trivial beyond

/-- A stream of replies is the replies.

Replies within the limits are read back from their encodings in order, with
spaces for the line breaks of their texts and nothing else changed. Each of them
leaves exactly the encodings after it and what follows them all, which is then
read as if it stood alone; after the last one the input has ended if nothing
follows. The encoding of a reply beyond a limit is refused, whatever follows it. -/
theorem reply_stream_read_back (rs : List Reply) (sendable : ∀ r ∈ rs, r.Sendable) :
    (∀ t, replies.readAll (rs.flatMap encodeReply ++ t) =
      (readings encodeReply Reply.flat t rs ++ (replies.readAll t).1,
        (replies.readAll t).2)) ∧
    replies.readAll (rs.flatMap encodeReply) =
      (readings encodeReply Reply.flat [] rs, .endOfInput) ∧
    ∀ (r : Reply) (t : Bytes), ¬r.Sendable → ∃ fault text,
      readReply (encodeReply r ++ t) = .error fault ∧ fault.toFault = .protocol text := by
  have back (t : Bytes) := readAll_encoded replies encodeReply Reply.flat t fun r member rest =>
    readReply_encode (sendable r member) rest
  refine ⟨back, ?_, ?_⟩
  · have ended : replies.readAll [] = ([], .endOfInput) := by
      rw [Reader.readAll_eq]
      rfl
    have alone := back []
    rwa [ended, List.append_nil, List.append_nil] at alone
  · intro r t beyond
    obtain ⟨fault, refused, final⟩ := readReply_of_not_sendable beyond t
    exact ⟨fault, fault.message, refused, fault.toFault_eq_protocol final⟩

/-- An error text of two lines, a value that is an encoded status, the least number and the
absence of a value; and a value of one byte too many. -/
theorem reply_stream_read_back_mixed :
    let rs : List Reply := [.error "ERR a\r\nb", .value (encodeReply .ok), .integer (-2 ^ 63), .null]
    let huge : Reply := .value (List.replicate (maxBulk + 1) 0)
    (∀ r ∈ rs, r.Sendable) ∧ ¬huge.Sendable ∧
    (replies.readAll (rs.flatMap encodeReply)).1.map Prod.fst =
      [.error "ERR a  b", .value [43, 79, 75, 13, 10], .integer (-9223372036854775808), .null] ∧
    (replies.readAll (rs.flatMap encodeReply)).2 = .endOfInput ∧
    ∃ fault text, readReply (encodeReply huge) = .error fault ∧ fault.toFault = .protocol text := by
  intro rs huge
  have fits : ∀ r ∈ rs, r.Sendable := by decide +kernel
  have tooLong : ¬huge.Sendable := by
    intro sendable
    have short : (List.replicate (maxBulk + 1) (0 : UInt8)).length ≤ maxBulk := sendable
    rw [List.length_replicate] at short
    exact absurd short (Nat.not_succ_le_self maxBulk)
  obtain ⟨-, stream, refused⟩ := reply_stream_read_back rs fits
  rw [stream]
  refine ⟨fits, tooLong, by decide +kernel, rfl, ?_⟩
  have refused := refused huge [] tooLong
  rwa [List.append_nil] at refused

end Resp

end LogKv
