import LogKv.Proofs.EncodedStreams

/-! Commands survive the wire. No argument can shift the framing of what follows
it, whatever its bytes are: a stream of commands within the limits is read back
command by command, and a command beyond a limit is refused, never cut down. -/
namespace LogKv

/-- A command that can be sent: few enough parts, each short enough. -/
def Command.Sendable (c : Command) : Prop :=
  c.parts.length ≤ Resp.maxCount ∧ ∀ part ∈ c.parts, part.length ≤ Resp.maxBulk

instance : DecidablePred Command.Sendable := fun c =>
  inferInstanceAs (Decidable
    (c.parts.length ≤ Resp.maxCount ∧ ∀ part ∈ c.parts, part.length ≤ Resp.maxBulk))

namespace Resp

theorem holdsBulks_flatMap {parts : List Bytes} (short : ∀ part ∈ parts, part.length ≤ maxBulk) :
    HoldsBulks (parts.flatMap bulk) parts := by
  induction parts with
  | nil => exact .nil
  | cons part parts ih =>
    obtain ⟨head, tail⟩ := List.forall_mem_cons.mp short
    exact .cons (holdsBulk_bulk head) (ih tail)

theorem holdsCommand_encode {c : Command} (sendable : c.Sendable) :
    HoldsCommand (encodeCommand c) c := by
  obtain ⟨parts⟩ := c
  obtain ⟨few, short⟩ := sendable
  have bound : parts.length ≤ 1024 * 1024 := few
  have low : -2 ^ 63 ≤ (parts.length : Int) := by omega
  have high : (parts.length : Int) < 2 ^ 63 := by omega
  have line := holdsLine_header Ascii.star (by decide) low high
  have count := Decimal.write_numeral low high
  cases parts with
  | nil => exact .frame (.empty line count (by simp))
  | cons part parts =>
    exact .frame (.array line count (Nat.succ_pos _) few (holdsBulks_flatMap short))

theorem readElements_of_long {parts : List Bytes} {long : Bytes} (member : long ∈ parts)
    (beyond : maxBulk < long.length) (found : List Bytes) (t : Bytes) :
    Refuses (readElements parts.length found) (parts.flatMap bulk ++ t) := by
  induction parts generalizing found with
  | nil => cases member
  | cons part parts ih =>
    rw [Refuses, List.flatMap_cons, List.append_assoc, List.length_cons, readElements]
    by_cases short : part.length ≤ maxBulk
    · have later : long ∈ parts := by
        rcases List.mem_cons.mp member with rfl | later
        · exact absurd short (Nat.not_le.mpr beyond)
        · exact later
      rw [readElement_reads.ok (holdsBulk_bulk short)]
      exact ih later _
    · obtain ⟨fault, refused, final⟩ :=
        readElement_bulk_of_long (Nat.not_le.mp short) (parts.flatMap bulk ++ t)
      rw [refused]
      exact ⟨fault, rfl, final⟩

theorem readArray_of_not_sendable {parts : List Bytes} (beyond : ¬Command.Sendable ⟨parts⟩)
    (t : Bytes) : Refuses (readArray (Decimal.write parts.length)) (parts.flatMap bulk ++ t) := by
  rw [Refuses, readArray]
  rcases readLength_write parts.length with length | length
  · by_cases few : parts.length ≤ maxCount
    · have long : ∃ part ∈ parts, maxBulk < part.length := by
        by_contra none
        simp only [not_exists, not_and, Nat.not_lt] at none
        exact beyond ⟨few, none⟩
      obtain ⟨part, member, long⟩ := long
      have some : ¬(parts.length : Int) ≤ 0 := by
        have := List.length_pos_of_mem member
        omega
      obtain ⟨fault, refused, final⟩ := readElements_of_long member long [] t
      refine ⟨fault, ?_, final⟩
      simp only [length, if_neg some, Int.toNat_natCast, refused]
      exact if_neg (by omega)
    · refine ⟨.badCount parts.length, ?_, by simp⟩
      simp only [length]
      rw [if_neg (by omega), if_pos (by omega)]
  · simp [length]

theorem readCommand_of_not_sendable {c : Command} (beyond : ¬c.Sendable) (t : Bytes) :
    Refuses readCommand (encodeCommand c ++ t) := by
  obtain ⟨parts⟩ := c
  rw [Refuses, encodeCommand, List.append_assoc, readCommand_eq]
  rcases readLine_header Ascii.star (by decide) parts.length (parts.flatMap bulk ++ t)
    with line | line
  · rw [line]
    exact ⟨_, rfl, by simp⟩
  · rw [line]
    exact readArray_of_not_sendable beyond t

/-- A stream of commands is the commands.

Commands within the limits are read back from their encodings in order, each of
them leaving exactly the encodings after it and what follows them all, which is
then read as if it stood alone. The encoding of a command beyond a limit is
refused, whatever follows it. -/
theorem command_stream_read_back (commands : List Command) (t : Bytes)
    (sendable : ∀ c ∈ commands, c.Sendable) :
    Resp.commands.readAll (commands.flatMap encodeCommand ++ t) =
        (readings encodeCommand id t commands ++ (Resp.commands.readAll t).1,
          (Resp.commands.readAll t).2) ∧
      ∀ (c : Command) (t : Bytes), ¬c.Sendable → ∃ fault text,
        readCommand (encodeCommand c ++ t) = .error fault ∧ fault.toFault = .protocol text := by
  constructor
  · exact readAll_encoded Resp.commands encodeCommand id t fun c member rest =>
      readCommand_reads.ok (holdsCommand_encode (sendable c member)) rest
  · intro c t beyond
    obtain ⟨fault, refused, final⟩ := readCommand_of_not_sendable beyond t
    exact ⟨fault, fault.message, refused, fault.toFault_eq_protocol final⟩

/-- A value that is an encoded command itself, the empty command, and a lone asterisk after them;
and an array of one element too many. -/
theorem command_stream_read_back_nested :
    let inner := encodeCommand ⟨[[71, 69, 84], Bytes.crlf]⟩
    let commands : List Command := [⟨[[83, 69, 84], [42], inner]⟩, .empty]
    let crowded : Command := ⟨List.replicate (maxCount + 1) []⟩
    (∀ c ∈ commands, c.Sendable) ∧ ¬crowded.Sendable ∧
    Resp.commands.readAll (commands.flatMap encodeCommand ++ [Ascii.star]) =
      ([(⟨[[83, 69, 84], [42], inner]⟩, [42, 48, 13, 10, 42]), (.empty, [42])], .endOfInput) ∧
    ∃ fault text, readCommand (encodeCommand crowded) = .error fault ∧
      fault.toFault = .protocol text := by
  intro inner commands crowded
  have fits : ∀ c ∈ commands, c.Sendable := by decide +kernel
  have tooMany : ¬crowded.Sendable := by
    intro sendable
    have few := sendable.1
    rw [List.length_replicate] at few
    exact absurd few (Nat.not_succ_le_self maxCount)
  have ended : Resp.commands.read [Ascii.star] = .error .endOfInput :=
    (readCommand_eq [Ascii.star]).trans (by decide +kernel)
  obtain ⟨stream, refused⟩ := command_stream_read_back commands [Ascii.star] fits
  refine ⟨fits, tooMany, stream.trans ?_, ?_⟩
  · rw [Reader.readAll_eq, ended]
    decide +kernel
  · have refused := refused crowded [] tooMany
    rwa [List.append_nil] at refused

end Resp

end LogKv
