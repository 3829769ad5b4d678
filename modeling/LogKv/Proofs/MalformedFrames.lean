import LogKv.Proofs.EncodedStreams
import LogKv.Proofs.FramingDecisions
import LogKv.Proofs.ReplyRoundTrip
import LogKv.Proofs.ShownText

/-! What a client is told about a malformed frame, and whether it can read it. The reply
shows what was wrong, a number, a byte or the text that should have been a length. All of
this is short but the last, which is shown whole: a header that nearly fills a line makes
a reply that no longer fits on one. -/
namespace LogKv.Resp

/-! ## What faults can tell of -/

/-- The number of the fault, if it has one, is a 64-bit number. -/
def Fault.Told : Fault → Prop
  | .badCount n | .badBulkLength n => Decimal.least ≤ n ∧ n ≤ Decimal.greatest
  | _ => True

/-- The numbers in the faults of a reader are 64-bit numbers. -/
def Reports {α : Type} (read : Bytes → Except Fault (α × Bytes)) : Prop :=
  ∀ s fault, read s = .error fault → fault.Told

theorem readLength_range {digits : Bytes} {n : Int} (length : readLength digits = .ok n) :
    Decimal.least ≤ n ∧ n ≤ Decimal.greatest := by
  have spelled := Decimal.read?_eq_some_iff_numeral.mpr (readLength_eq_ok_iff.mp length)
  exact (Decimal.read?_eq_some_iff.mp spelled).2

theorem readLength_told {digits : Bytes} {fault : Fault}
    (refused : readLength digits = .error fault) : fault = .badLength digits := by
  unfold readLength at refused
  split at refused <;> cases refused
  rfl

theorem readLine_reports : Reports readLine := by
  intro s fault refused
  rcases lineFeed_cases s with unbroken | ⟨text, rest, rfl, unbroken⟩
  · rw [readLine_open unbroken] at refused
    split at refused <;> cases refused <;> trivial
  · rw [readLine_text unbroken] at refused
    split at refused <;> cases refused
    trivial

theorem readBody_reports (length : Nat) : Reports (readBody length) := by
  intro s fault refused
  unfold readBody at refused
  repeat' split at refused
  all_goals cases refused
  all_goals trivial

theorem readElement_reports : Reports readElement := by
  intro s fault refused
  unfold readElement at refused
  split at refused
  · next line =>
    cases refused
    exact readLine_reports s fault line
  · cases refused
    trivial
  · split at refused
    · cases refused
      trivial
    · split at refused
      · next length =>
        cases refused
        rw [readLength_told length]
        trivial
      · next length =>
        split at refused
        · exact readBody_reports _ _ fault refused
        · cases refused
          exact readLength_range length

theorem readElements_reports (count : Nat) (found : List Bytes) :
    Reports (readElements count found) := by
  induction count generalizing found with
  | zero => exact fun s fault refused => nomatch refused
  | succ count ih =>
    intro s fault refused
    unfold readElements at refused
    split at refused
    · next element =>
      cases refused
      exact readElement_reports s fault element
    · exact ih _ _ fault refused

theorem readArray_reports (digits : Bytes) : Reports (readArray digits) := by
  intro s fault refused
  unfold readArray at refused
  split at refused
  · next length =>
    cases refused
    rw [readLength_told length]
    trivial
  · next length =>
    split at refused
    · cases refused
    · split at refused
      · cases refused
        exact readLength_range length
      · split at refused
        · next elements =>
          cases refused
          exact readElements_reports _ _ _ fault elements
        · cases refused

theorem readCommand_reports : Reports readCommand := by
  intro s fault refused
  induction hn : s.length using Nat.strongRecOn generalizing s with
  | ind n ih =>
    subst hn
    rw [readCommand_eq] at refused
    split at refused
    · next line =>
      cases refused
      exact readLine_reports s fault line
    · next line =>
      have shorter := readLine_length line
      split at refused
      · exact readArray_reports _ _ fault refused
      · split at refused
        · exact ih _ (by omega) _ refused rfl
        · cases refused

/-! ## How long a fault's text is -/

namespace Fault

theorem badLength_size (digits : Bytes) :
    (badLength digits).message.utf8ByteSize = 17 + (Utf8.lossy digits).utf8ByteSize :=
  Text.size_between (by decide) _

/-- Every other text is short. -/
theorem message_size {fault : Fault} (told : fault.Told)
    (other : ∀ digits, fault ≠ .badLength digits) : fault.message.utf8ByteSize ≤ 64 := by
  have number {n : Int} (fits : Decimal.least ≤ n ∧ n ≤ Decimal.greatest) :
      (toString n).utf8ByteSize ≤ 20 := by
    rw [Decimal.toString_size]
    exact Decimal.write_length fits.1 (Int.lt_of_le_of_lt fits.2 (by decide))
  have character (c : Char) : (toString c).utf8ByteSize ≤ 4 :=
    Nat.le_trans (Nat.le_of_eq String.utf8ByteSize_singleton) c.utf8Size_le_four
  cases fault with
  | badLength digits => exact absurd rfl (other digits)
  | badCount count =>
    have size : (badCount count).message.utf8ByteSize = 25 + (toString count).utf8ByteSize :=
      Text.size_behind (by decide) _
    have shown := number told
    omega
  | badBulkLength length =>
    have size : (badBulkLength length).message.utf8ByteSize = 20 + (toString length).utf8ByteSize :=
      Text.size_behind (by decide) _
    have shown := number told
    omega
  | notBulk found =>
    have size : (notBulk found).message.utf8ByteSize =
        20 + (toString ((found.map shownByte).getD ' ')).utf8ByteSize :=
      Text.size_between (by decide) _
    have shown := character ((found.map shownByte).getD ' ')
    omega
  | unknownReplyKind found =>
    have size : (unknownReplyKind found).message.utf8ByteSize =
        24 + (toString (shownByte found)).utf8ByteSize :=
      Text.size_between (by decide) _
    have shown := character (shownByte found)
    omega
  | _ => decide

end Fault

/-! ## The reply to a malformed frame -/

/-- The most bytes of a broken length that fit on a line with the words around them. -/
def maxShownLength : Nat := 65497

theorem sendable_protocol {fault : Fault} (told : fault.Told) :
    Reply.Sendable (.error s!"ERR Protocol error: {fault.message}") ↔
      ∀ digits, fault = .badLength digits →
        (Utf8.lossy digits).utf8ByteSize ≤ maxShownLength := by
  have size : (s!"ERR Protocol error: {fault.message}").utf8ByteSize =
      20 + fault.message.utf8ByteSize := Text.size_behind (by decide) _
  rw [Reply.Sendable, size, maxLine, maxShownLength]
  by_cases spelled : ∃ digits, fault = .badLength digits
  · obtain ⟨digits, rfl⟩ := spelled
    have text := Fault.badLength_size digits
    constructor
    · rintro fits other same
      cases same
      omega
    · intro fits
      have fits := fits digits rfl
      omega
  · have text := fault.message_size told fun digits same => spelled ⟨digits, same⟩
    refine iff_of_true (by omega) fun digits same => absurd ⟨digits, same⟩ spelled

theorem flat_protocol (text : String) :
    Text.flat s!"ERR Protocol error: {text}" = "ERR Protocol error: " ++ Text.flat text := by
  have front : Text.flat "ERR Protocol error: " = "ERR Protocol error: " :=
    Text.flat_eq_self (by decide)
  calc Text.flat s!"ERR Protocol error: {text}"
    _ = Text.flat "ERR Protocol error: " ++ Text.flat text := Text.flat_append _ _
    _ = "ERR Protocol error: " ++ Text.flat text := by rw [front]

/-- A client can read what it is told about a malformed frame, unless a length is shown
that is too long.

The reply to a malformed frame is an error that starts with the same words each time. It
is read back with spaces for the line breaks of its text, except where a header without
a length is shown in it whose text is longer than `maxShownLength`. Such a reply is
refused. No header of up to a third of that many bytes has such a text. -/
theorem malformed_frame_reply {s : Bytes} {fault : Fault} (refused : readCommand s = .error fault)
    (broken : fault ≠ .endOfInput) :
    ∃ text, fault.toFault = .protocol text ∧
      Reply.ofFault fault.toFault = .error s!"ERR Protocol error: {text}" ∧
      ((∀ digits, fault = .badLength digits →
          (Utf8.lossy digits).utf8ByteSize ≤ maxShownLength) →
        readReply (encodeReply (.ofFault fault.toFault)) =
          .ok (.error ("ERR Protocol error: " ++ Text.flat text), [])) ∧
      (∀ digits, fault = .badLength digits →
        (maxShownLength < (Utf8.lossy digits).utf8ByteSize →
          Refuses readReply (encodeReply (.ofFault fault.toFault))) ∧
        (digits.length ≤ 21832 → (Utf8.lossy digits).utf8ByteSize ≤ maxShownLength)) := by
  have told := readCommand_reports s fault refused
  have reply : Reply.ofFault fault.toFault = .error s!"ERR Protocol error: {fault.message}" := by
    rw [fault.toFault_eq_protocol broken]
    rfl
  have sendable := sendable_protocol told
  refine ⟨fault.message, fault.toFault_eq_protocol broken, reply, fun short => ?_,
    fun digits same => ⟨fun long => ?_, fun few => ?_⟩⟩
  · have back := readReply_encode (sendable.mpr short) []
    rw [List.append_nil, ← reply] at back
    rw [back, reply, ← flat_protocol]
    rfl
  · have beyond := mt sendable.mp fun short => Nat.not_le.mpr long (short digits same)
    have refused := readReply_of_not_sendable beyond []
    rw [List.append_nil, ← reply] at refused
    exact refused
  · have size := Utf8.lossy_size digits
    rw [maxShownLength]
    omega

/-- A length that is a letter and half a character, in the first element of an array. -/
theorem malformed_frame_reply_letter :
    let s : Bytes := [42, 49, 13, 10, 36, 120, 195, 13, 10]
    let fault : Fault := .badLength [120, 195]
    readCommand s = .error fault ∧ fault ≠ .endOfInput ∧
    readReply (encodeReply (.ofFault fault.toFault)) =
      .ok (.error "ERR Protocol error: invalid length 'x\uFFFD'", []) := by
  intro s fault
  have refused : readCommand s = .error fault := (readCommand_eq s).trans (by decide +kernel)
  have broken : fault ≠ .endOfInput := by decide
  obtain ⟨text, told, -, read, -⟩ := malformed_frame_reply refused broken
  have short : (Utf8.lossy [120, 195]).utf8ByteSize ≤ maxShownLength := by decide +kernel
  refine ⟨refused, broken, (read fun digits same => ?_).trans ?_⟩
  · obtain rfl := Fault.badLength.inj same
    exact short
  · obtain rfl := LogKv.Fault.protocol.inj told
    decide +kernel

theorem readCommand_letters {n : Nat} (short : n < 65534) :
    readCommand (Ascii.star :: List.replicate (n + 1) 120 ++ Bytes.crlf) =
      .error (.badLength (List.replicate (n + 1) 120)) := by
  have unbroken : Ascii.lineFeed ∉ Ascii.star :: List.replicate (n + 1) 120 := by
    simp [List.mem_replicate, show Ascii.lineFeed ≠ Ascii.star ∧ Ascii.lineFeed ≠ 120 by decide]
  have fits : ¬maxLine ≤ n + 1 + 1 := by
    rw [maxLine]
    omega
  have line := readLine_crlf unbroken []
  rw [List.length_cons, List.length_replicate, if_neg fits, List.append_nil] at line
  have letter : readLength (List.replicate (n + 1) 120) =
      .error (.badLength (List.replicate (n + 1) 120)) := by
    simp [readLength, Decimal.read?, Decimal.unbounded?, Decimal.magnitude?, List.replicate_succ,
      Ascii.isDigit]
  rw [readCommand_eq, line]
  simp only [List.head?_cons, if_true, List.tail_cons, readArray, letter]

theorem lossy_letters_size (n : Nat) :
    (Utf8.lossy (List.replicate n 120)).utf8ByteSize = n := by
  have letters : List.replicate n 120 = Utf8.encode (String.ofList (List.replicate n 'x')) := by
    have letter : String.utf8EncodeChar 'x' = [120] := by decide
    rw [Utf8.encode, String.toList_ofList, List.flatMap_replicate, letter]
    simp
  rw [letters, Utf8.lossy_encode, ← Utf8.encode_length, ← letters, List.length_replicate]

/-- A header of an asterisk and 65500 letters is answered with a line that no client reads. -/
theorem long_header_reply_refused :
    let letters : Bytes := List.replicate 65500 120
    readCommand (Ascii.star :: letters ++ Bytes.crlf) = .error (.badLength letters) ∧
    Refuses readReply (encodeReply (.ofFault (Fault.badLength letters).toFault)) := by
  intro letters
  have refused : readCommand (Ascii.star :: letters ++ Bytes.crlf) = .error (.badLength letters) :=
    readCommand_letters (by decide)
  have size : (Utf8.lossy letters).utf8ByteSize = 65500 := lossy_letters_size 65500
  have beyond : ¬Reply.Sendable (.ofFault (Fault.badLength letters).toFault) := fun sendable => by
    have short := (sendable_protocol (readCommand_reports _ _ refused)).mp sendable letters rfl
    rw [size] at short
    exact absurd short (by decide)
  have unread := readReply_of_not_sendable beyond []
  rw [List.append_nil] at unread
  exact ⟨refused, unread⟩

end LogKv.Resp
