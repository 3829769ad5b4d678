import LogKv.Proofs.DecimalNumerals
import LogKv.Proofs.LineWords
import LogKv.Resp.Command

/-! The grammar of commands on the wire, and that reading follows it. A grammar
tells which bytes hold what; it knows nothing of streams, limits on memory or the
order in which bytes are looked at. A reader of a grammar takes exactly the front
of a stream that holds something and returns what it holds with the rest. Each
part of a frame has its grammar and its reader, and commands are put together
from the parts. -/
namespace LogKv.Resp

/-! ## Readers and grammars -/

section Grammars
variable {α : Type} {read : Bytes → Except Fault (α × Bytes)} {grammar : Bytes → α → Prop}

/-- Reading succeeds exactly when a front of the stream holds something, and
takes that front and no more. -/
def Reads (read : Bytes → Except Fault (α × Bytes)) (grammar : Bytes → α → Prop) : Prop :=
  ∀ s a rest, read s = .ok (a, rest) ↔ ∃ front, s = front ++ rest ∧ grammar front a

theorem Reads.front (reads : Reads read grammar) {s rest : Bytes} {a : α}
    (taken : read s = .ok (a, rest)) : ∃ front, s = front ++ rest ∧ grammar front a :=
  (reads s a rest).mp taken

theorem Reads.ok (reads : Reads read grammar) {front : Bytes} {a : α} (holds : grammar front a)
    (rest : Bytes) : read (front ++ rest) = .ok (a, rest) :=
  (reads _ a rest).mpr ⟨front, rfl, holds⟩

end Grammars

/-! ## Lines -/

/-- A text of at most `maxLine` bytes and a line feed hold a line. It is the text
without one carriage return at its end, if there is one. -/
def HoldsLine (front line : Bytes) : Prop :=
  ∃ text, front = text ++ [Ascii.lineFeed] ∧ Ascii.lineFeed ∉ text ∧ text.length ≤ maxLine ∧
    (text = line ++ [Ascii.carriageReturn] ∨
      text = line ∧ line.getLast? ≠ some Ascii.carriageReturn)

theorem dropReturn_eq_iff {text line : Bytes} :
    dropReturn text = line ↔
      text = line ++ [Ascii.carriageReturn] ∨
        text = line ∧ line.getLast? ≠ some Ascii.carriageReturn := by
  unfold dropReturn
  split
  · next ended =>
    have whole := List.dropLast_append_getLast? Ascii.carriageReturn ended
    constructor
    · rintro rfl
      exact .inl whole.symm
    · rintro (rfl | ⟨rfl, bare⟩)
      · exact List.dropLast_concat
      · exact absurd ended bare
  · next bare =>
    constructor
    · rintro rfl
      exact .inr ⟨rfl, bare⟩
    · rintro (rfl | ⟨rfl, -⟩)
      · exact absurd List.getLast?_concat bare
      · rfl

theorem forall_onLine {text : Bytes} (unbroken : Ascii.lineFeed ∉ text) :
    ∀ b ∈ text, onLine b = true := by
  intro b member
  have other : b ≠ Ascii.lineFeed := fun feed => unbroken (feed ▸ member)
  simpa [onLine] using other

/-- Reading stops at the first line feed, whatever comes before and after it. -/
theorem readLine_text {text : Bytes} (unbroken : Ascii.lineFeed ∉ text) (rest : Bytes) :
    readLine (text ++ Ascii.lineFeed :: rest) =
      if maxLine < text.length then .error .lineTooLong else .ok (dropReturn text, rest) := by
  have visible := forall_onLine unbroken
  have feed : ¬onLine Ascii.lineFeed = true := by decide
  rw [readLine, List.takeWhile_append_of_pos visible, List.dropWhile_append_of_pos visible,
    List.takeWhile_cons_of_neg feed, List.dropWhile_cons_of_neg feed, List.append_nil]

/-- Without a line feed, a stream is a line that may go on. -/
theorem readLine_open {s : Bytes} (unbroken : Ascii.lineFeed ∉ s) :
    readLine s = .error (if maxLine < s.length then .lineTooLong else .endOfInput) := by
  have visible := forall_onLine unbroken
  have whole := @List.takeWhile_append_of_pos _ onLine s [] visible
  have nothing := @List.dropWhile_append_of_pos _ onLine s [] visible
  simp only [List.append_nil, List.takeWhile_nil, List.dropWhile_nil] at whole nothing
  rw [readLine, whole, nothing]
  split <;> rfl

theorem lineFeed_cases (s : Bytes) :
    Ascii.lineFeed ∉ s ∨
      ∃ text rest, s = text ++ Ascii.lineFeed :: rest ∧ Ascii.lineFeed ∉ text := by
  by_cases ended : Ascii.lineFeed ∈ s
  · exact .inr (List.eq_append_cons_of_mem ended)
  · exact .inl ended

theorem readLine_reads : Reads readLine HoldsLine := by
  intro s line rest
  constructor
  · intro taken
    rcases lineFeed_cases s with unbroken | ⟨text, after, rfl, unbroken⟩
    · rw [readLine_open unbroken] at taken
      cases taken
    · rw [readLine_text unbroken] at taken
      split at taken
      · cases taken
      · next short =>
        cases taken
        refine ⟨text ++ [Ascii.lineFeed], by simp, text, rfl, unbroken, by omega, ?_⟩
        exact dropReturn_eq_iff.mp rfl
  · rintro ⟨front, rfl, text, rfl, unbroken, short, ended⟩
    rw [List.append_assoc, List.singleton_append, readLine_text unbroken,
      if_neg (Nat.not_lt.mpr short), dropReturn_eq_iff.mpr ended]

theorem HoldsLine.unbroken {front line : Bytes} (holds : HoldsLine front line) :
    Ascii.lineFeed ∉ line := by
  obtain ⟨text, -, unbroken, -, rfl | ⟨rfl, -⟩⟩ := holds
  · exact fun member => unbroken (List.mem_append_left _ member)
  · exact unbroken

/-! ## Lengths and bulk strings -/

theorem readLength_eq_ok_iff {digits : Bytes} {n : Int} :
    readLength digits = .ok n ↔ Decimal.Numeral digits n := by
  rw [← Decimal.read?_eq_some_iff_numeral, readLength]
  cases Decimal.read? digits <;> simp

theorem readBody_reads (length : Nat) :
    Reads (readBody length) fun front body => front = body ++ Bytes.crlf ∧ body.length = length := by
  intro s body rest
  constructor
  · intro taken
    unfold readBody at taken
    split at taken
    · cases taken
    · next body' after cut =>
      obtain ⟨rfl, sized⟩ := Bytes.cut?_eq_some_iff.mp cut
      split at taken
      · next a b after =>
        split at taken
        · next ended =>
          obtain ⟨rfl, rfl⟩ := ended
          cases taken
          exact ⟨body ++ Bytes.crlf, by simp [Bytes.crlf], rfl, sized⟩
        · cases taken
      · cases taken
  · rintro ⟨front, rfl, rfl, sized⟩
    have cut : Bytes.cut? length (body ++ Bytes.crlf ++ rest) = some (body, Bytes.crlf ++ rest) :=
      Bytes.cut?_eq_some_iff.mpr ⟨List.append_assoc _ _ _, sized⟩
    rw [readBody, cut]
    exact if_pos ⟨rfl, rfl⟩

/-- A header line with a dollar sign and a length, that many bytes and a line
terminator hold a bulk string. -/
inductive HoldsBulk : Bytes → Bytes → Prop where
  | mk {header digits body : Bytes} (line : HoldsLine header (Ascii.dollar :: digits))
      (length : Decimal.Numeral digits body.length) (short : body.length ≤ maxBulk) :
      HoldsBulk (header ++ body ++ Bytes.crlf) body

theorem readElement_reads : Reads readElement HoldsBulk := by
  intro s body rest
  constructor
  · intro taken
    unfold readElement at taken
    split at taken
    · cases taken
    · cases taken
    · next kind digits after first =>
      obtain ⟨header, rfl, line⟩ := readLine_reads.front first
      split at taken
      · cases taken
      · next dollar =>
        obtain rfl := not_not.mp dollar
        split at taken
        · cases taken
        · next length number =>
          split at taken
          · next inside =>
            obtain ⟨front, rfl, rfl, sized⟩ := (readBody_reads _).front taken
            have announced : length = body.length := by omega
            have numeral := announced ▸ readLength_eq_ok_iff.mp number
            refine ⟨_, ?_, .mk line numeral (by omega)⟩
            simp only [List.append_assoc]
          · cases taken
  · rintro ⟨front, rfl, holds⟩
    cases holds with
    | @mk header digits body line length short =>
      have inside : (0 : Int) ≤ body.length ∧ (body.length : Int) ≤ maxBulk := by omega
      rw [List.append_assoc, List.append_assoc, readElement, readLine_reads.ok line]
      simp only [ne_eq, not_true_eq_false, if_false, readLength_eq_ok_iff.mpr length, if_pos inside,
        Int.toNat_natCast]
      rw [← List.append_assoc]
      exact (readBody_reads _).ok ⟨rfl, rfl⟩ rest

/-- Bulk strings one after another. -/
inductive HoldsBulks : Bytes → List Bytes → Prop where
  | nil : HoldsBulks [] []
  | cons {front more body : Bytes} {bodies : List Bytes} (head : HoldsBulk front body)
      (tail : HoldsBulks more bodies) : HoldsBulks (front ++ more) (body :: bodies)

theorem readElements_eq_ok_iff {count : Nat} {found parts : List Bytes} {s rest : Bytes} :
    readElements count found s = .ok (parts, rest) ↔
      ∃ front bodies, s = front ++ rest ∧ HoldsBulks front bodies ∧ bodies.length = count ∧
        parts = found.reverse ++ bodies := by
  induction count generalizing found s with
  | zero =>
    constructor
    · intro taken
      cases taken
      exact ⟨[], [], rfl, .nil, rfl, (List.append_nil _).symm⟩
    · rintro ⟨front, bodies, rfl, holds, sized, rfl⟩
      obtain rfl := List.length_eq_zero_iff.mp sized
      cases holds
      simp [readElements]
  | succ count ih =>
    constructor
    · intro taken
      unfold readElements at taken
      split at taken
      · cases taken
      · next body after element =>
        obtain ⟨front, rfl, head⟩ := readElement_reads.front element
        obtain ⟨more, bodies, rfl, tail, rfl, rfl⟩ := ih.mp taken
        exact ⟨front ++ more, body :: bodies, by simp, .cons head tail, rfl, by simp⟩
    · rintro ⟨front, bodies, rfl, holds, sized, rfl⟩
      cases holds with
      | nil => cases sized
      | @cons front more body bodies head tail =>
        rw [readElements, List.append_assoc, readElement_reads.ok head]
        exact ih.mpr ⟨more, bodies, rfl, tail, by simpa using sized, by simp⟩

/-! ## Commands -/

/-- The frame of one command: a line of words, or an array of bulk strings. An
array that announces no elements, or fewer than none, is the empty command. -/
inductive HoldsFrame : Bytes → Command → Prop where
  | line {front text : Bytes} {parts : List Bytes} (line : HoldsLine front text)
      (kind : text.head? ≠ some Ascii.star) (spoken : ¬Bytes.Blank text)
      (words : Bytes.HoldsWords text parts) : HoldsFrame front ⟨parts⟩
  | empty {header digits : Bytes} {n : Int} (line : HoldsLine header (Ascii.star :: digits))
      (count : Decimal.Numeral digits n) (none : n ≤ 0) : HoldsFrame header .empty
  | array {header digits elements : Bytes} {parts : List Bytes}
      (line : HoldsLine header (Ascii.star :: digits))
      (count : Decimal.Numeral digits parts.length) (some : 1 ≤ parts.length)
      (few : parts.length ≤ maxCount) (bulks : HoldsBulks elements parts) :
      HoldsFrame (header ++ elements) ⟨parts⟩

/-- A command: its frame, after any number of blank lines. -/
inductive HoldsCommand : Bytes → Command → Prop where
  | frame {front : Bytes} {c : Command} (frame : HoldsFrame front c) : HoldsCommand front c
  | skip {header text front : Bytes} {c : Command} (line : HoldsLine header text)
      (blank : Bytes.Blank text) (more : HoldsCommand front c) : HoldsCommand (header ++ front) c

theorem readArray_eq_ok_iff {digits s rest : Bytes} {c : Command} :
    readArray digits s = .ok (c, rest) ↔
      (∃ n ≤ 0, Decimal.Numeral digits n ∧ c = .empty ∧ s = rest) ∨
      ∃ front, s = front ++ rest ∧ Decimal.Numeral digits c.parts.length ∧ 1 ≤ c.parts.length ∧
        c.parts.length ≤ maxCount ∧ HoldsBulks front c.parts := by
  constructor
  · intro taken
    unfold readArray at taken
    split at taken
    · cases taken
    · next n number =>
      have numeral := readLength_eq_ok_iff.mp number
      split at taken
      · next none =>
        cases taken
        exact .inl ⟨n, none, numeral, rfl, rfl⟩
      · split at taken
        · cases taken
        · split at taken
          · cases taken
          · next parts after elements =>
            cases taken
            obtain ⟨front, bodies, rfl, bulks, sized, same⟩ := readElements_eq_ok_iff.mp elements
            obtain rfl : parts = bodies := same
            have announced : n = parts.length := by omega
            have some : 1 ≤ parts.length := by omega
            have few : parts.length ≤ maxCount := by omega
            exact .inr ⟨front, rfl, announced ▸ numeral, some, few, bulks⟩
  · rintro (⟨n, none, numeral, rfl, rfl⟩ | ⟨front, rfl, numeral, some, few, bulks⟩)
    · simp only [readArray, readLength_eq_ok_iff.mpr numeral, if_pos none]
    · have elements : readElements c.parts.length [] (front ++ rest) = .ok (c.parts, rest) :=
        readElements_eq_ok_iff.mpr ⟨front, c.parts, rfl, bulks, rfl, rfl⟩
      simp only [readArray, readLength_eq_ok_iff.mpr numeral, Int.toNat_natCast, elements]
      rw [if_neg (by omega), if_neg (by omega)]

theorem readCommand_blank {header text : Bytes} (line : HoldsLine header text)
    (blank : Bytes.Blank text) (s : Bytes) : readCommand (header ++ s) = readCommand s := by
  have kind : text.head? ≠ some Ascii.star := fun star =>
    absurd (blank _ (List.mem_of_mem_head? star)) (by decide)
  rw [readCommand_eq, readLine_reads.ok line]
  simp only [if_neg kind, (Bytes.words_eq_nil_iff line.unbroken).mpr blank]

theorem HoldsFrame.read {front : Bytes} {c : Command} (frame : HoldsFrame front c)
    (rest : Bytes) : readCommand (front ++ rest) = .ok (c, rest) := by
  cases frame with
  | @line front text parts line kind spoken words =>
    have split := (Bytes.words_eq_iff line.unbroken).mpr words
    have some := mt (Bytes.words_eq_nil_iff line.unbroken).mp spoken
    rw [readCommand_eq, readLine_reads.ok line]
    simp only [if_neg kind, split]
    cases parts with
    | nil => exact absurd split some
    | cons word words => rfl
  | empty line count none =>
    rw [readCommand_eq, readLine_reads.ok line]
    exact readArray_eq_ok_iff.mpr (.inl ⟨_, none, count, rfl, rfl⟩)
  | array line count some few bulks =>
    rw [readCommand_eq, List.append_assoc, readLine_reads.ok line]
    exact readArray_eq_ok_iff.mpr (.inr ⟨_, rfl, count, some, few, bulks⟩)

theorem HoldsCommand.read {front : Bytes} {c : Command} (holds : HoldsCommand front c)
    (rest : Bytes) : readCommand (front ++ rest) = .ok (c, rest) := by
  induction holds with
  | frame frame => exact frame.read rest
  | skip line blank more ih => rw [List.append_assoc, readCommand_blank line blank, ih]

theorem readCommand_front {s rest : Bytes} {c : Command} (taken : readCommand s = .ok (c, rest)) :
    ∃ front, s = front ++ rest ∧ HoldsCommand front c := by
  -- Every line that is skipped leaves a shorter stream.
  induction hn : s.length using Nat.strongRecOn generalizing s with
  | ind n ih =>
    subst hn
    rw [readCommand_eq] at taken
    split at taken
    · cases taken
    · next text after first =>
      have shorter := readLine_length first
      obtain ⟨header, rfl, line⟩ := readLine_reads.front first
      split at taken
      · next star =>
        obtain ⟨digits, rfl⟩ := List.head?_eq_some_iff.mp star
        rcases readArray_eq_ok_iff.mp taken with
          ⟨n, none, numeral, rfl, rfl⟩ | ⟨front, rfl, numeral, some, few, bulks⟩
        · exact ⟨header, rfl, .frame (.empty line numeral none)⟩
        · exact ⟨header ++ front, by simp, .frame (.array line numeral some few bulks)⟩
      · next kind =>
        split at taken
        · next none =>
          obtain ⟨front, rfl, more⟩ := ih after.length (by omega) taken rfl
          have blank := (Bytes.words_eq_nil_iff line.unbroken).mp none
          exact ⟨header ++ front, by simp, .skip line blank more⟩
        · next some =>
          cases taken
          have words := (Bytes.words_eq_iff line.unbroken).mp rfl
          have spoken := mt (Bytes.words_eq_nil_iff line.unbroken).mpr some
          exact ⟨header, rfl, .frame (.line line kind spoken words)⟩

theorem readCommand_reads : Reads readCommand HoldsCommand := by
  intro s c rest
  constructor
  · exact readCommand_front
  · rintro ⟨front, rfl, holds⟩
    exact holds.read rest

/-! ## What a reader reports -/

theorem Fault.toFault_eq_protocol {fault : Fault} (final : fault ≠ .endOfInput) :
    fault.toFault = .protocol fault.message := by
  cases fault with
  | endOfInput => exact absurd rfl final
  | _ => rfl

/-- Reading finds the framing broken. -/
def Refuses {α : Type} (read : Bytes → Except Fault (α × Bytes)) (s : Bytes) : Prop :=
  ∃ fault, read s = .error fault ∧ fault ≠ .endOfInput

/-- Commands are read exactly as the grammar has them.

Reading a command succeeds if and only if some blank lines and one frame stand
at the front of the stream; it returns what the frame holds and leaves all that
comes after the frame. On every other stream it reports that the input has ended
or that the framing is broken. -/
theorem readCommand_follows_grammar (s : Bytes) :
    (∀ c rest, readCommand s = .ok (c, rest) ↔
      ∃ front, s = front ++ rest ∧ HoldsCommand front c) ∧
    ((∃ c front rest, s = front ++ rest ∧ HoldsCommand front c) ∨
      ∃ fault, readCommand s = .error fault ∧
        (fault.toFault = .endOfInput ∨ ∃ text, fault.toFault = .protocol text)) := by
  refine ⟨readCommand_reads s, ?_⟩
  cases taken : readCommand s with
  | ok part =>
    obtain ⟨front, split, holds⟩ := readCommand_reads.front taken
    exact .inl ⟨part.1, front, part.2, split, holds⟩
  | error fault =>
    refine .inr ⟨fault, rfl, ?_⟩
    by_cases ended : fault = .endOfInput
    · exact .inl (ended ▸ rfl)
    · exact .inr ⟨fault.message, fault.toFault_eq_protocol ended⟩

end LogKv.Resp
