import LogKv.Proofs.CommandRoundTrip

/-! Commands that are typed. Whoever types a command need not count its bytes: a line
of words is read as the array of these words, however much white space stands around
them and whichever line end is sent. Only a line whose first byte is an asterisk is
something else, so that a word may start with one wherever white space precedes it. -/
namespace LogKv.Resp

/-! ## Lines as they are typed -/

/-- White space of at most `maxLine` bytes, and the line feed that ends it. -/
def BlankLine (line : Bytes) : Prop :=
  ∃ text, line = text ++ [Ascii.lineFeed] ∧ Bytes.Blank text ∧ text.length ≤ maxLine

/-- The two ends that a line can have. -/
def LineEnd (ending : Bytes) : Prop := ending = [Ascii.lineFeed] ∨ ending = Bytes.crlf

/-- A word: no white space is in it, and no line feed either. -/
def Token (word : Bytes) : Prop := Bytes.Solid word ∧ Ascii.lineFeed ∉ word

instance : DecidablePred Token := fun word =>
  inferInstanceAs (Decidable (Bytes.Solid word ∧ Ascii.lineFeed ∉ word))

/-- One or more tokens with white space between any two of them, and perhaps behind
the last. -/
inductive Spaced : Bytes → List Bytes → Prop where
  | last {word gap : Bytes} (token : Token word) (blank : Bytes.Blank gap) :
      Spaced (word ++ gap) [word]
  | more {word gap body : Bytes} {words : List Bytes} (token : Token word)
      (blank : Bytes.Blank gap) (apart : gap ≠ []) (others : Spaced body words) :
      Spaced (word ++ gap ++ body) (word :: words)

/-- Whatever stands before the line feed is white space. -/
theorem LineEnd.split {ending : Bytes} (ended : LineEnd ending) :
    ∃ gap, ending = gap ++ [Ascii.lineFeed] ∧ Bytes.Blank gap := by
  rcases ended with rfl | rfl
  · exact ⟨[], rfl, List.forall_mem_nil _⟩
  · exact ⟨[Ascii.carriageReturn], rfl, by decide⟩

theorem blank_unbroken {gap : Bytes} (blank : Bytes.Blank gap) : Ascii.lineFeed ∉ gap :=
  fun member => absurd (blank _ member) (by decide)

theorem Spaced.ne_nil {body : Bytes} {tokens : List Bytes} (spaced : Spaced body tokens) :
    tokens ≠ [] := by
  cases spaced <;> exact List.cons_ne_nil _ _

theorem Spaced.unbroken {body : Bytes} {tokens : List Bytes} (spaced : Spaced body tokens) :
    Ascii.lineFeed ∉ body := by
  induction spaced with
  | last token blank =>
    rw [List.mem_append, not_or]
    exact ⟨token.2, blank_unbroken blank⟩
  | more token blank apart others ih =>
    simp only [List.mem_append, not_or]
    exact ⟨⟨token.2, blank_unbroken blank⟩, ih⟩

theorem Spaced.holdsWords {body : Bytes} {tokens : List Bytes} (spaced : Spaced body tokens) :
    Bytes.HoldsWords body tokens := by
  have start : Bytes.Blank [] := List.forall_mem_nil _
  induction spaced with
  | last token blank =>
    exact .word start token.1 (fun b head => blank b (List.mem_of_mem_head? head)) (.none blank)
  | @more word gap body words token blank apart others ih =>
    rw [List.append_assoc]
    refine .word start token.1 (fun b head => ?_) (ih.indent blank)
    obtain ⟨c, gap, rfl⟩ := List.exists_cons_of_ne_nil apart
    cases head
    exact blank b List.mem_cons_self

/-- The words of a line that fits are few enough and short enough for an array. -/
theorem Spaced.sendable {body : Bytes} {tokens : List Bytes} (spaced : Spaced body tokens)
    (short : body.length ≤ maxLine) : Command.Sendable ⟨tokens⟩ := by
  have few := spaced.holdsWords.length_le
  have whole := spaced.holdsWords.flatten_length_le
  simp only [maxLine] at short
  refine ⟨?_, fun token member => ?_⟩
  · simp only [maxCount]
    omega
  · have part : token.length ≤ tokens.flatten.length :=
      (List.sublist_flatten_of_mem member).length_le
    simp only [maxBulk]
    omega

/-! ## Reading a line -/

/-- What a line starts with is not touched by the return at its end. -/
theorem head?_dropReturn {kind : UInt8} (other : kind ≠ Ascii.carriageReturn) (text : Bytes) :
    (dropReturn text).head? = some kind ↔ text.head? = some kind := by
  rcases dropReturn_eq_iff.mp (rfl : dropReturn text = dropReturn text) with returned | ⟨same, -⟩
  · generalize dropReturn text = line at returned
    subst returned
    cases line with
    | nil => simp [other.symm]
    | cons b line => rfl
  · rw [← same]

/-- The first byte of a stream is that of its first line, unless it belongs to the line's end. -/
theorem readLine_head {kind : UInt8} {s text rest : Bytes} (taken : readLine s = .ok (text, rest))
    (visible : kind ≠ Ascii.lineFeed) (other : kind ≠ Ascii.carriageReturn) :
    text.head? = some kind ↔ s.head? = some kind := by
  rcases lineFeed_cases s with unbroken | ⟨front, behind, rfl, unbroken⟩
  · rw [readLine_open unbroken] at taken
    cases taken
  · rw [readLine_text unbroken] at taken
    split at taken
    · cases taken
    · obtain ⟨rfl, -⟩ := Prod.mk.inj (Except.ok.inj taken)
      rw [head?_dropReturn other]
      cases front with
      | nil => simp [visible.symm]
      | cons b front => rfl

theorem words_dropReturn {text : Bytes} (unbroken : Ascii.lineFeed ∉ text) :
    Bytes.words (dropReturn text) = Bytes.words text := by
  rcases dropReturn_eq_iff.mp (rfl : dropReturn text = dropReturn text) with returned | ⟨same, -⟩
  · generalize dropReturn text = line at returned
    subst returned
    obtain ⟨ws, holds⟩ := Bytes.exists_holdsWords line
    have longer : Bytes.HoldsWords (line ++ [Ascii.carriageReturn]) ws :=
      holds.trail (by decide)
    rw [holds.words_eq fun member => unbroken (List.mem_append_left _ member),
      longer.words_eq unbroken]
  · rw [← same]

/-- A line that does not start with an asterisk is the command of its words, unless it
has none. -/
theorem readCommand_text {text : Bytes} (unbroken : Ascii.lineFeed ∉ text)
    (short : text.length ≤ maxLine) (kind : text.head? ≠ some Ascii.star) (rest : Bytes) :
    readCommand (text ++ Ascii.lineFeed :: rest) =
      if Bytes.words text = [] then readCommand rest else .ok (⟨Bytes.words text⟩, rest) := by
  have kind : (dropReturn text).head? ≠ some Ascii.star :=
    mt (head?_dropReturn (by decide) text).mp kind
  rw [readCommand_eq, readLine_text unbroken, if_neg (Nat.not_lt.mpr short)]
  simp only [if_neg kind, words_dropReturn unbroken]
  cases Bytes.words text <;> rfl

theorem readCommand_blankLines {lines : List Bytes} (blank : ∀ line ∈ lines, BlankLine line)
    (s : Bytes) : readCommand (lines.flatten ++ s) = readCommand s := by
  induction lines with
  | nil => rfl
  | cons line lines ih =>
    obtain ⟨⟨text, rfl, white, short⟩, others⟩ := List.forall_mem_cons.mp blank
    have unbroken := blank_unbroken white
    have kind : text.head? ≠ some Ascii.star := fun star =>
      absurd (white _ (List.mem_of_mem_head? star)) (by decide)
    rw [List.flatten_cons, List.append_assoc, List.append_assoc, List.singleton_append,
      readCommand_text unbroken short kind, if_pos ((Bytes.words_eq_nil_iff unbroken).mpr white)]
    exact ih others

/-- Tokens are read from a line whatever white space stands before, between and behind
them. -/
theorem readCommand_spaced {lead body gap : Bytes} {tokens : List Bytes}
    (leading : Bytes.Blank lead) (spaced : Spaced body tokens) (trailing : Bytes.Blank gap)
    (short : (lead ++ body ++ gap).length ≤ maxLine)
    (kind : (lead ++ body ++ gap).head? ≠ some Ascii.star) (rest : Bytes) :
    readCommand (lead ++ body ++ gap ++ Ascii.lineFeed :: rest) = .ok (⟨tokens⟩, rest) := by
  have holds := (spaced.holdsWords.indent leading).trail trailing
  have unbroken : Ascii.lineFeed ∉ lead ++ body ++ gap := by
    simp only [List.mem_append, not_or]
    exact ⟨⟨blank_unbroken leading, spaced.unbroken⟩, blank_unbroken trailing⟩
  rw [readCommand_text unbroken short kind, holds.words_eq unbroken, if_neg spaced.ne_nil]

/-- A typed line is read as the array of its tokens.

However the tokens are spaced, whichever line end closes the line and however many
blank lines stand before it, a line of at most `maxLine` bytes before its line feed that
does not start with an asterisk is read as the encoding of these tokens is: as the command
of these parts. What comes after the line is left as it is. With white space in front of
its first token a line never starts with an asterisk, whatever the token starts with. -/
theorem typed_line_read_as_array {lines : List Bytes} {lead body ending : Bytes}
    {tokens : List Bytes} (before : ∀ line ∈ lines, BlankLine line) (blank : Bytes.Blank lead)
    (spaced : Spaced body tokens) (ended : LineEnd ending)
    (short : (lead ++ body ++ ending).length ≤ maxLine + 1) (rest : Bytes) :
    let line := lead ++ body ++ ending
    (line.head? ≠ some Ascii.star →
      readCommand (lines.flatten ++ line ++ rest) = .ok (⟨tokens⟩, rest) ∧
      readCommand (encodeCommand ⟨tokens⟩ ++ rest) = .ok (⟨tokens⟩, rest)) ∧
    (lead ≠ [] → line.head? ≠ some Ascii.star) := by
  intro line
  obtain ⟨gap, rfl, trailing⟩ := ended.split
  have whole : line = lead ++ body ++ gap ++ [Ascii.lineFeed] := (List.append_assoc _ _ _).symm
  have sized : (lead ++ body ++ gap).length ≤ maxLine := by
    simp only [List.length_append, List.length_singleton] at short ⊢
    omega
  refine ⟨fun kind => ⟨?_, ?_⟩, fun indented => ?_⟩
  · have plain : (lead ++ body ++ gap).head? ≠ some Ascii.star := by
      intro star
      obtain ⟨more, start⟩ := List.head?_eq_some_iff.mp star
      exact kind (by rw [whole, start]; rfl)
    rw [List.append_assoc, readCommand_blankLines before, whole, List.append_assoc,
      List.singleton_append, readCommand_spaced blank spaced trailing sized plain]
  · have fits : body.length ≤ maxLine := by
      simp only [List.length_append] at sized
      omega
    exact readCommand_reads.ok (holdsCommand_encode (spaced.sendable fits)) rest
  · obtain ⟨b, lead, rfl⟩ := List.exists_cons_of_ne_nil indented
    intro star
    obtain rfl : b = Ascii.star := Option.some.inj star
    exact absurd (blank _ List.mem_cons_self) (by decide)

/-- Two blank lines, and a line whose first word looks like the header of an array, with a
carriage return and a form feed among its white space. -/
theorem typed_line_read_as_array_starred :
    let lines : List Bytes := [[32, 13, 10], [10]]
    let tokens : List Bytes := [[42, 49], [120]]
    let body : Bytes := [42, 49] ++ [32, 13, 12] ++ ([120] ++ [13, 32])
    (∀ line ∈ lines, BlankLine line) ∧ Spaced body tokens ∧
    readCommand (lines.flatten ++ (Ascii.tab :: body ++ Bytes.crlf) ++ [Ascii.star]) =
      .ok (⟨tokens⟩, [Ascii.star]) ∧
    readCommand (encodeCommand ⟨tokens⟩ ++ [Ascii.star]) = .ok (⟨tokens⟩, [Ascii.star]) := by
  intro lines tokens body
  have before : ∀ line ∈ lines, BlankLine line := by
    simp only [lines, List.forall_mem_cons]
    exact ⟨⟨[32, 13], rfl, by decide, by decide⟩, ⟨[], rfl, by decide, by decide⟩,
      List.forall_mem_nil _⟩
  have spaced : Spaced body tokens :=
    .more (by decide) (by decide) (by decide) (.last (by decide) (by decide))
  have blank : Bytes.Blank [Ascii.tab] := by decide
  obtain ⟨read, indented⟩ :=
    typed_line_read_as_array before blank spaced (.inr rfl) (by decide) [Ascii.star]
  exact ⟨before, spaced, read (indented (by decide))⟩

end LogKv.Resp
