import LogKv.Proofs.FrameGrammar
import LogKv.Resp.Reply

/-! What a reader has decided, more input does not change. A command or a reply
that is read from the front of a stream is read the same however the stream goes
on, and so is broken framing; only the end of the input can be mended by more
input, and it is what every cut through a frame comes to. -/
namespace LogKv.Resp

section Readers
variable {α : Type}

/-- What a reader found, if the stream goes on with `more`. -/
def extended (more : Bytes) : Except Fault (α × Bytes) → Except Fault (α × Bytes)
  | .ok (a, rest) => .ok (a, rest ++ more)
  | .error fault => .error fault

theorem extended_ok (more : Bytes) (a : α) (rest : Bytes) :
    extended more (.ok (a, rest)) = .ok (a, rest ++ more) := rfl

/-- On every stream the reader asks for more input or sees in a longer stream
what it saw before. -/
def Settles (read : Bytes → Except Fault (α × Bytes)) : Prop :=
  ∀ s more, read s = .error .endOfInput ∨ read (s ++ more) = extended more (read s)

/-- Reading `s` gives `a` after exactly `n` bytes. -/
def Takes (read : Bytes → Except Fault (α × Bytes)) (s : Bytes) (a : α) (n : Nat) : Prop :=
  n ≤ s.length ∧ read s = .ok (a, s.drop n)

end Readers

/-! ## The parts of a frame -/

theorem readLine_settles : Settles readLine := by
  intro s more
  rcases lineFeed_cases s with unbroken | ⟨text, rest, rfl, unbroken⟩
  · rw [readLine_open unbroken]
    by_cases long : maxLine < s.length
    · right
      rw [if_pos long]
      rcases lineFeed_cases more with later | ⟨text, rest, rfl, later⟩
      · have whole : Ascii.lineFeed ∉ s ++ more := by simp [unbroken, later]
        rw [readLine_open whole, if_pos (by rw [List.length_append]; omega)]
        rfl
      · have whole : Ascii.lineFeed ∉ s ++ text := by simp [unbroken, later]
        rw [← List.append_assoc, readLine_text whole, if_pos (by rw [List.length_append]; omega)]
        rfl
    · exact .inl (congrArg Except.error (if_neg long))
  · right
    rw [List.append_assoc, List.cons_append, readLine_text unbroken, readLine_text unbroken]
    split <;> rfl

theorem readBody_settles (length : Nat) : Settles (readBody length) := by
  intro s more
  cases cut : Bytes.cut? length s with
  | none => exact .inl (by rw [readBody, cut])
  | some part =>
    obtain ⟨body, rest⟩ := part
    obtain ⟨rfl, sized⟩ := Bytes.cut?_eq_some_iff.mp cut
    have longer : Bytes.cut? length (body ++ rest ++ more) = some (body, rest ++ more) :=
      Bytes.cut?_eq_some_iff.mpr ⟨List.append_assoc _ _ _, sized⟩
    rw [readBody, readBody, cut, longer]
    cases rest with
    | nil => exact .inl rfl
    | cons a rest =>
      cases rest with
      | nil => exact .inl rfl
      | cons b rest =>
        right
        dsimp only [List.cons_append]
        split <;> rfl

theorem readElement_settles : Settles readElement := by
  intro s more
  unfold readElement
  rcases readLine_settles s more with ended | same
  · exact .inl (by rw [ended])
  · rw [same]
    cases readLine s with
    | error fault => exact .inr rfl
    | ok part =>
      obtain ⟨line, rest⟩ := part
      cases line with
      | nil => exact .inr rfl
      | cons kind digits =>
        dsimp only [extended_ok]
        split
        · exact .inr rfl
        · cases readLength digits with
          | error fault => exact .inr rfl
          | ok length =>
            dsimp only
            split
            · exact readBody_settles length.toNat rest more
            · exact .inr rfl

theorem readElements_settles (count : Nat) (found : List Bytes) :
    Settles (readElements count found) := by
  induction count generalizing found with
  | zero => exact fun s more => .inr rfl
  | succ count ih =>
    intro s more
    unfold readElements
    rcases readElement_settles s more with ended | same
    · exact .inl (by rw [ended])
    · rw [same]
      cases readElement s with
      | error fault => exact .inr rfl
      | ok part => exact ih (part.1 :: found) part.2 more

theorem readArray_settles (digits : Bytes) : Settles (readArray digits) := by
  intro s more
  unfold readArray
  cases readLength digits with
  | error fault => exact .inr rfl
  | ok count =>
    dsimp only
    split
    · exact .inr rfl
    · split
      · exact .inr rfl
      · rcases readElements_settles count.toNat [] s more with ended | same
        · exact .inl (by rw [ended])
        · rw [same]
          cases readElements count.toNat [] s <;> exact .inr rfl

/-! ## Commands and replies -/

theorem readCommand_settles : Settles readCommand := by
  intro s more
  induction hn : s.length using Nat.strongRecOn generalizing s with
  | ind n ih =>
    subst hn
    rw [readCommand_eq, readCommand_eq (s ++ more)]
    rcases readLine_settles s more with ended | same
    · exact .inl (by rw [ended])
    · rw [same]
      cases line : readLine s with
      | error fault => exact .inr rfl
      | ok part =>
        obtain ⟨text, rest⟩ := part
        have shorter := readLine_length line
        dsimp only [extended_ok]
        split
        · exact readArray_settles text.tail rest more
        · cases Bytes.words text with
          | nil => exact ih rest.length (by omega) rest rfl
          | cons word words => exact .inr rfl

theorem readReply_settles : Settles readReply := by
  intro s more
  rcases readLine_settles s more with ended | same
  · exact .inl (by rw [readReply, ended])
  · cases line : readLine s with
    | error fault =>
      right
      rw [line] at same
      rw [readReply, readReply, same, line]
      rfl
    | ok part =>
      obtain ⟨text, rest⟩ := part
      rw [line] at same
      by_cases dollar : text.head? = some Ascii.dollar
      · obtain ⟨digits, rfl⟩ := List.head?_eq_some_iff.mp dollar
        rw [readReply_dollar line, readReply_dollar same]
        cases readLength digits with
        | error fault => exact .inr rfl
        | ok length =>
          dsimp only
          split
          · exact .inr rfl
          · split
            · exact .inr rfl
            · rcases readBody_settles length.toNat rest more with ended | same
              · exact .inl (by rw [ended])
              · rw [same]
                cases readBody length.toNat rest <;> exact .inr rfl
      · -- A reply of any other kind ends with its line.
        right
        rw [readReply, readReply, same, line]
        cases text with
        | nil => rfl
        | cons kind digits =>
          have other : kind ≠ Ascii.dollar := fun same => dollar (congrArg some same)
          simp only [extended_ok, if_neg other]
          cases readLength digits
          all_goals
            repeat' split
            all_goals rfl

/-! ## Decisions -/

section Decisions
variable {α : Type} {read : Bytes → Except Fault (α × Bytes)}

theorem Settles.takes (settles : Settles read) {p : Bytes} {a : α} {n : Nat}
    (taken : Takes read p a n) (q : Bytes) : Takes read (p ++ q) a n := by
  obtain ⟨within, taken⟩ := taken
  refine ⟨by rw [List.length_append]; omega, ?_⟩
  rcases settles p q with ended | same
  · rw [ended] at taken
    cases taken
  · rw [same, taken, List.drop_append_of_le_length within]
    rfl

theorem Settles.refused (settles : Settles read) {p : Bytes} {fault : Fault}
    (refused : read p = .error fault) (final : fault ≠ .endOfInput) (q : Bytes) :
    read (p ++ q) = .error fault := by
  rcases settles p q with ended | same
  · rw [ended] at refused
    cases refused
    exact absurd rfl final
  · rw [same, refused]
    rfl

/-- A cut through what was taken asks for more input: had it been decided, the
whole would have been decided the same way, with more bytes left. -/
theorem Settles.cut (settles : Settles read) {p : Bytes} {a : α} {n : Nat}
    (taken : Takes read p a n) {m : Nat} (early : m < n) :
    read (p.take m) = .error .endOfInput := by
  obtain ⟨within, taken⟩ := taken
  have whole : p.take m ++ p.drop m = p := List.take_append_drop m p
  rcases settles (p.take m) (p.drop m) with ended | same
  · exact ended
  · rw [whole, taken] at same
    cases decided : read (p.take m) with
    | error fault =>
      rw [decided] at same
      cases same
    | ok part =>
      rw [decided] at same
      have left := congrArg (fun part => part.2.length) (Except.ok.inj same)
      simp only [List.length_append, List.length_drop] at left
      omega

end Decisions

/-- More input changes nothing that the reader has decided. -/
structure Final {α : Type} (read : Bytes → Except Fault (α × Bytes)) : Prop where
  /-- A success has taken some number of bytes off the front. -/
  front : ∀ p a rest, read p = .ok (a, rest) → ∃ n, Takes read p a n ∧ rest = p.drop n
  success : ∀ p q a n, Takes read p a n → Takes read (p ++ q) a n
  refusal : ∀ p q fault text, read p = .error fault → fault.toFault = .protocol text →
    read (p ++ q) = .error fault
  /-- Where more input changes the answer, the answer was that the input has ended. -/
  changed : ∀ p q, read (p ++ q) ≠ extended q (read p) → read p = .error .endOfInput
  /-- So it was for every part of what a success has taken. -/
  cut : ∀ p a n, Takes read p a n → ∀ m < n, read (p.take m) = .error .endOfInput

theorem Settles.final {α : Type} {read : Bytes → Except Fault (α × Bytes)} (settles : Settles read)
    (front : ∀ {p a rest}, read p = .ok (a, rest) → ∃ front, p = front ++ rest) : Final read where
  front p a rest taken := by
    obtain ⟨front, rfl⟩ := front taken
    refine ⟨front.length, ⟨by simp, ?_⟩, ?_⟩
    · rw [taken, List.drop_left]
    · rw [List.drop_left]
  success p q a n taken := settles.takes taken q
  refusal p q fault text refused protocol := by
    refine settles.refused refused ?_ q
    rintro rfl
    cases protocol
  changed p q other := (settles p q).resolve_right other
  cut p a n taken m early := settles.cut taken early

theorem readReply_front {s rest : Bytes} {r : Reply} (taken : readReply s = .ok (r, rest)) :
    ∃ front, s = front ++ rest := by
  unfold readReply at taken
  split at taken
  · cases taken
  · cases taken
  · next kind digits after line =>
    obtain ⟨header, rfl, -⟩ := readLine_reads.front line
    repeat' split at taken
    all_goals cases taken
    all_goals try exact ⟨header, rfl⟩
    next body =>
      obtain ⟨front, rfl, -⟩ := (readBody_reads _).front body
      exact ⟨header ++ front, (List.append_assoc _ _ _).symm⟩

/-- Framing decisions are final, of commands and of replies.

What is read from the front of a stream is read the same, from as many bytes,
however the stream goes on, and a stream whose framing is broken stays broken in
the same way. So the only answer that more input can change is that the input
has ended, and that is the answer to every cut through a command or a reply. -/
theorem framing_decisions_final : Final readCommand ∧ Final readReply := by
  constructor
  · refine readCommand_settles.final fun taken => ?_
    obtain ⟨front, split, -⟩ := readCommand_reads.front taken
    exact ⟨front, split⟩
  · exact readReply_settles.final readReply_front

end LogKv.Resp
