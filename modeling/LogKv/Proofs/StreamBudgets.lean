import LogKv.Proofs.GuardedReaders

/-! What a stream can yield. Every item that is read takes bytes off the stream, at least as many
as it brings, and an element of an array takes five more than it brings. So a stream has no more
commands than bytes and no more bytes of arguments either, whatever its headers announce, and
reading it comes to an end. -/
namespace LogKv.Resp

/-! ## Frames and their contents -/

theorem HoldsLine.length_lt {front line : Bytes} (holds : HoldsLine front line) :
    line.length < front.length := by
  obtain ⟨text, rfl, -, -, rfl | ⟨rfl, -⟩⟩ := holds <;> simp

theorem HoldsLine.head {kind : UInt8} {front line : Bytes} (holds : HoldsLine front line)
    (visible : kind ≠ Ascii.lineFeed) (other : kind ≠ Ascii.carriageReturn) :
    line.head? = some kind ↔ front.head? = some kind := by
  have taken := readLine_reads.ok holds []
  rw [readLine_head taken visible other, List.append_nil]

theorem HoldsLine.blankLine {front line : Bytes} (holds : HoldsLine front line)
    (blank : Bytes.Blank line) : BlankLine front := by
  obtain ⟨text, rfl, -, short, rfl | ⟨rfl, -⟩⟩ := holds
  · have white : Bytes.Blank [Ascii.carriageReturn] := by decide
    exact ⟨_, rfl, List.forall_mem_append.mpr ⟨blank, white⟩, short⟩
  · exact ⟨_, rfl, blank, short⟩

/-- A dollar sign, a digit, a line feed and a terminator are five bytes. -/
theorem HoldsBulk.length_le {front body : Bytes} (holds : HoldsBulk front body) :
    5 + body.length ≤ front.length := by
  cases holds with
  | mk line length short =>
    have header := line.length_lt
    have digits := List.length_pos_iff.mpr length.1.ne_nil
    simp only [List.length_append, List.length_cons, Bytes.crlf, List.length_nil] at header ⊢
    omega

theorem HoldsBulks.length_le {front : Bytes} {bodies : List Bytes}
    (holds : HoldsBulks front bodies) :
    5 * bodies.length + bodies.flatten.length ≤ front.length := by
  induction holds with
  | nil => simp
  | cons head tail ih =>
    have first := head.length_le
    simp only [List.length_cons, List.flatten_cons, List.length_append]
    omega

theorem HoldsFrame.length_lt {front : Bytes} {c : Command} (frame : HoldsFrame front c) :
    c.parts.flatten.length < front.length ∧
      (front.head? = some Ascii.star →
        5 * c.parts.length + c.parts.flatten.length < front.length) := by
  cases frame with
  | line line kind spoken words =>
    have whole := words.flatten_length_le
    have shorter := line.length_lt
    refine ⟨by dsimp only; omega, fun star => ?_⟩
    exact absurd ((line.head (by decide) (by decide)).mpr star) kind
  | empty line count none =>
    have some := line.length_lt
    simp only [Command.empty, List.flatten_nil, List.length_nil]
    omega
  | array line count some few bulks =>
    have header := line.length_lt
    have elements := bulks.length_le
    simp only [List.length_append]
    omega

theorem HoldsCommand.split {front : Bytes} {c : Command} (holds : HoldsCommand front c) :
    ∃ (lines : List Bytes) (frame : Bytes), front = lines.flatten ++ frame ∧
      (∀ line ∈ lines, BlankLine line) ∧ HoldsFrame frame c := by
  induction holds with
  | frame frame => exact ⟨[], _, rfl, List.forall_mem_nil _, frame⟩
  | skip line blank more ih =>
    obtain ⟨lines, frame, rfl, blanks, holds⟩ := ih
    exact ⟨_ :: lines, frame, by simp,
      List.forall_mem_cons.mpr ⟨line.blankLine blank, blanks⟩, holds⟩

/-! ## Streams -/

theorem readCommand_split {s rest : Bytes} {c : Command} (taken : readCommand s = .ok (c, rest)) :
    ∃ (lines : List Bytes) (frame : Bytes), s = lines.flatten ++ frame ++ rest ∧
      (∀ line ∈ lines, BlankLine line) ∧ HoldsFrame frame c ∧
      c.parts.flatten.length < frame.length ∧
      (frame.head? = some Ascii.star →
        5 * c.parts.length + c.parts.flatten.length < frame.length) := by
  obtain ⟨front, rfl, holds⟩ := readCommand_reads.front taken
  obtain ⟨lines, frame, rfl, blank, holds⟩ := holds.split
  exact ⟨lines, frame, rfl, blank, holds, holds.length_lt⟩

/-- Each command takes a byte more than it brings. -/
theorem commands_budget (s : Bytes) :
    (commands.items s).length + ((commands.items s).flatMap Command.parts).flatten.length +
      (commands.unread s).length ≤ s.length := by
  induction s using commands.induction with
  | stopped s fault stopped =>
    simp [commands.items_of_error stopped, commands.unread_of_error stopped]
  | item s c rest taken ih =>
    obtain ⟨lines, frame, split, -, -, weight, -⟩ := readCommand_split taken
    have whole := congrArg List.length split
    rw [commands.items_of_ok taken, commands.unread_of_ok taken]
    simp only [List.length_cons, List.flatMap_cons, List.flatten_append, List.length_append]
      at whole ih ⊢
    omega

/-- Reading ends, and takes no more off a stream than is there.

Checked step by step, the readers never slice behind the end, never work with a number that does
not fit, and never need more turns than the stream has bytes and one more, be it for one command
or for all of them. A command that is read takes its frame off the stream, behind blank lines:
more bytes than its parts have, and for an array five more with each part. A reply takes at
least one byte. So the commands of a stream are followed by a fault, and neither are there more
of them than the bytes that they take, nor do their parts have more. -/
theorem reading_progresses :
    (∀ s turns, s.length < turns → Guarded.command turns s = Guarded.framed (readCommand s)) ∧
    (∀ s, Guarded.reply s = Guarded.framed (readReply s)) ∧
    (∀ s turns, s.length < turns →
      Guarded.stream turns s = .ok (commands.items s, commands.stop s)) ∧
    (∀ s c rest, readCommand s = .ok (c, rest) →
      ∃ (lines : List Bytes) (frame : Bytes), s = lines.flatten ++ frame ++ rest ∧
        (∀ line ∈ lines, BlankLine line) ∧ HoldsFrame frame c ∧
        c.parts.flatten.length < frame.length ∧
        (frame.head? = some Ascii.star →
          5 * c.parts.length + c.parts.flatten.length < frame.length)) ∧
    (∀ s r rest, readReply s = .ok (r, rest) → ∃ frame, s = frame ++ rest ∧ frame ≠ []) ∧
    ∀ s, ∃ front, s = front ++ commands.unread s ∧
      readCommand (commands.unread s) = .error (commands.stop s) ∧
      (commands.items s).length ≤ front.length ∧
      ((commands.items s).flatMap Command.parts).flatten.length ≤ front.length := by
  refine ⟨fun s turns => Guarded.command_eq, Guarded.reply_eq, fun s turns => Guarded.stream_eq,
    fun s c rest => readCommand_split, fun s r rest taken => ?_, fun s => ?_⟩
  · obtain ⟨frame, rfl⟩ := readReply_front taken
    refine ⟨frame, rfl, ?_⟩
    rintro rfl
    exact absurd (readReply_length taken) (Nat.lt_irrefl _)
  · obtain ⟨front, split, -⟩ := commands.front readCommand_reads s
    have whole := congrArg List.length split
    have budget := commands_budget s
    rw [List.length_append] at whole
    exact ⟨front, split, commands.read_unread s, by omega, by omega⟩

/-- Behind a blank line an array whose elements take the five bytes that they must, and then one
of as many and as long elements as there may be, without a single byte of them. -/
theorem reading_progresses_announced :
    let pair : Bytes := [42, 50, 10, 36, 48, 10, 13, 10, 36, 48, 10, 13, 10]
    let huge := header Ascii.star maxCount ++ header Ascii.dollar maxBulk
    let s := Ascii.lineFeed :: pair ++ huge
    let hollow : Command := ⟨[[], []]⟩
    Guarded.command (s.length + 1) s = .ok (hollow, huge) ∧
    Guarded.command (huge.length + 1) huge = .error (.framing .endOfInput) ∧
    Guarded.stream (s.length + 1) s = .ok ([hollow], .endOfInput) ∧
    (∃ (lines : List Bytes) (frame : Bytes), s = lines.flatten ++ frame ++ huge ∧
      (frame.head? = some Ascii.star → 5 * 2 < frame.length)) ∧
    ∃ front, s = front ++ commands.unread s ∧ (commands.items s).length ≤ front.length := by
  intro pair huge s hollow
  obtain ⟨guarded, -, stream, progress, -, budget⟩ := reading_progresses
  have taken : readCommand s = .ok (hollow, huge) :=
    (readCommand_eq s).trans ((readCommand_eq (pair ++ huge)).trans (by decide +kernel))
  have ended : readCommand huge = .error .endOfInput :=
    (readCommand_eq huge).trans (by decide +kernel)
  have items : commands.items s = [hollow] := by
    rw [commands.items_of_ok taken, commands.items_of_error ended]
  have stop : commands.stop s = .endOfInput := by
    rw [commands.stop_of_ok taken, commands.stop_of_error ended]
  refine ⟨?_, ?_, ?_, ?_, ?_⟩
  · rw [guarded s _ (Nat.lt_succ_self _), taken]
    rfl
  · rw [guarded huge _ (Nat.lt_succ_self _), ended]
    rfl
  · rw [stream s _ (Nat.lt_succ_self _), items, stop]
  · obtain ⟨lines, frame, split, -, -, -, weight⟩ := progress s hollow huge taken
    exact ⟨lines, frame, split, weight⟩
  · obtain ⟨front, split, -, few, -⟩ := budget s
    exact ⟨front, split, few⟩

end LogKv.Resp
