import Mathlib.Data.List.TakeWhile
import LogKv.Proofs.ArrivingStreams
import LogKv.Proofs.TypedLines

/-! Readers that check each of their own steps. A slice has to start inside its bytes, a number
has to fit where it is kept, and a loop gets only so many turns. None of these checks ever fails:
with more turns than there are bytes, a guarded reader finds what the reader itself finds,
whatever lengths the headers announce. -/
namespace LogKv.Resp

/-- What a guarded reader can come to instead of a result. -/
inductive Mishap where
  /-- A fault of the framing, for the reader to report. -/
  | framing (fault : Fault)
  /-- A slice that starts behind the last byte. -/
  | slice
  /-- A number that does not fit where it is kept. -/
  | overflow
  /-- A loop with no turn left. -/
  | turns
  deriving DecidableEq, Repr

namespace Guarded

/-- What a reader finds by itself: a result, or a fault of the framing. -/
def framed {α : Type} : Except Fault α → Except Mishap α
  | .ok a => .ok a
  | .error fault => .error (.framing fault)

theorem framed_ok {α : Type} (a : α) : framed (.ok a) = .ok a := rfl

theorem bind_ok {α β : Type} (a : α) (next : α → Except Mishap β) :
    (Except.ok a >>= next) = next a := rfl

/-! ## The checks -/

/-- The bytes from a position on. -/
def sliceFrom (start : Nat) (bytes : Bytes) : Except Mishap Bytes :=
  if start ≤ bytes.length then .ok (bytes.drop start) else .error .slice

/-- A number of bytes or elements, as a word of the machine. -/
def word (n : Int) : Except Mishap Nat :=
  if 0 ≤ n ∧ n < USize.size then .ok n.toNat else .error .overflow

/-- A number that was announced, as a signed one of 64 bits. -/
def signed (n : Int) : Except Mishap Int :=
  if -2 ^ 63 ≤ n ∧ n < 2 ^ 63 then .ok n else .error .overflow

theorem sliceFrom_append (front rest : Bytes) :
    sliceFrom front.length (front ++ rest) = .ok rest := by
  rw [sliceFrom, if_pos (by simp), List.drop_left]

theorem sliceFrom_cons (b : UInt8) (rest : Bytes) : sliceFrom 1 (b :: rest) = .ok rest :=
  sliceFrom_append [b] rest

/-- Every limit of the wire fits in a word, be it of 32 bits. -/
theorem word_of_small {n : Int} (positive : 0 ≤ n) (small : n < 2 ^ 32) :
    word n = .ok n.toNat := by
  have wide := USize.le_size
  rw [word, if_pos (by omega)]

/-! ## The parts of a frame -/

/-- Takes a line off a stream, of which no more is looked at than a line may have. -/
def line (s : Bytes) : Except Mishap (Bytes × Bytes) := do
  let window := s.take (← word (maxLine + 1))
  let text := window.takeWhile onLine
  if text.length < window.length then
    return (dropReturn text, ← sliceFrom (text.length + 1) s)
  else if maxLine < text.length then
    throw (.framing .lineTooLong)
  else
    throw (.framing .endOfInput)

/-- The number that follows the first byte of a header. -/
def length (digits : Bytes) : Except Mishap Int := do
  signed (← framed (readLength digits))

/-- Takes the bytes of a bulk string and their terminator off a stream. -/
def body (length : Int) (s : Bytes) : Except Mishap (Bytes × Bytes) := do
  let length ← word length
  let expected ← word (length + Bytes.crlf.length)
  let arrived := s.take expected
  if arrived.length < expected then
    throw (.framing .endOfInput)
  else if (← sliceFrom length arrived) = Bytes.crlf then
    return (arrived.take length, s.drop expected)
  else
    throw (.framing .unterminatedBulk)

theorem window_visible {s : Bytes} (unbroken : Ascii.lineFeed ∉ s) (limit : Nat) :
    (s.take limit).takeWhile onLine = s.take limit :=
  List.takeWhile_eq_self_iff.mpr
    (forall_onLine fun member => unbroken (List.mem_of_mem_take member))

theorem line_eq (s : Bytes) : line s = framed (readLine s) := by
  have limit : word (maxLine + 1) = .ok (maxLine + 1) := word_of_small (by decide) (by decide)
  simp only [line, limit, bind_ok]
  rcases lineFeed_cases s with unbroken | ⟨text, rest, rfl, unbroken⟩
  · rw [window_visible unbroken, readLine_open unbroken, if_neg (Nat.lt_irrefl _),
      List.length_take]
    by_cases long : maxLine < s.length
    · rw [if_pos long, if_pos (by omega)]
      rfl
    · rw [if_neg long, if_neg (by omega)]
      rfl
  · rw [readLine_text unbroken]
    by_cases long : maxLine < text.length
    · -- The window ends before the line does.
      rw [List.take_append_of_le_length long, window_visible unbroken, if_neg (Nat.lt_irrefl _),
        List.length_take, if_pos (by omega), if_pos long]
      rfl
    · obtain ⟨more, wide⟩ : ∃ more, maxLine + 1 - text.length = more + 1 :=
        ⟨maxLine - text.length, by omega⟩
      have window : (text ++ Ascii.lineFeed :: rest).take (maxLine + 1) =
          text ++ Ascii.lineFeed :: rest.take more := by
        rw [List.take_append, List.take_of_length_le (by omega), wide, List.take_succ_cons]
      have feed : ¬onLine Ascii.lineFeed = true := by decide
      have behind : sliceFrom (text.length + 1) (text ++ Ascii.lineFeed :: rest) = .ok rest := by
        have after := sliceFrom_append (text ++ [Ascii.lineFeed]) rest
        simpa using after
      rw [window, List.takeWhile_append_of_pos (forall_onLine unbroken),
        List.takeWhile_cons_of_neg feed, List.append_nil, if_pos (by simp), behind, if_neg long]
      rfl

theorem length_eq (digits : Bytes) : length digits = framed (readLength digits) := by
  rw [length]
  cases number : readLength digits with
  | error fault => rfl
  | ok n =>
    obtain ⟨-, low, high⟩ := readLength_eq_ok_iff.mp number
    exact if_pos ⟨low, high⟩

/-- A stream is too short for a bulk string, or it has its bytes and two more. -/
theorem body_cases (n : Nat) (s : Bytes) :
    s.length < n + 2 ∨ ∃ body a b rest, s = body ++ a :: b :: rest ∧ body.length = n := by
  by_cases short : s.length < n + 2
  · exact .inl short
  · have sized : (s.drop n).length = s.length - n := List.length_drop
    have split := List.take_append_drop n s
    generalize s.drop n = after at sized split
    rcases after with _ | ⟨a, _ | ⟨b, rest⟩⟩
    · simp only [List.length_nil] at sized
      omega
    · simp only [List.length_cons, List.length_nil] at sized
      omega
    · exact .inr ⟨s.take n, a, b, rest, split.symm, List.length_take_of_le (by omega)⟩

theorem readBody_of_short {n : Nat} {s : Bytes} (short : s.length < n + 2) :
    readBody n s = .error .endOfInput := by
  unfold readBody
  split
  · rfl
  · next body rest cut =>
    obtain ⟨rfl, rfl⟩ := Bytes.cut?_eq_some_iff.mp cut
    rw [List.length_append] at short
    rcases rest with _ | ⟨a, _ | ⟨b, rest⟩⟩
    · rfl
    · rfl
    · simp only [List.length_cons] at short
      omega

theorem body_eq {length : Int} (positive : 0 ≤ length) (short : length ≤ maxBulk) (s : Bytes) :
    body length s = framed (readBody length.toNat s) := by
  obtain ⟨n, rfl⟩ := Int.eq_ofNat_of_zero_le positive
  have few : n ≤ 16 * 1024 * 1024 := Int.ofNat_le.mp short
  have sized : word n = .ok n := word_of_small positive (by omega)
  have expected : word (n + Bytes.crlf.length) = .ok (n + 2) :=
    word_of_small (by omega) (by simp only [Bytes.crlf, List.length_cons, List.length_nil]; omega)
  simp only [body, sized, expected, bind_ok, Int.toNat_natCast]
  rcases body_cases n s with missing | ⟨body, a, b, rest, rfl, rfl⟩
  · rw [readBody_of_short missing, List.length_take, if_pos (by omega)]
    rfl
  · have cut : Bytes.cut? body.length (body ++ a :: b :: rest) = some (body, a :: b :: rest) :=
      Bytes.cut?_eq_some_iff.mpr ⟨rfl, rfl⟩
    have arrived : (body ++ a :: b :: rest).take (body.length + 2) = body ++ [a, b] := by
      rw [List.take_length_add_append]
      rfl
    have behind : (body ++ a :: b :: rest).drop (body.length + 2) = rest := by
      rw [List.drop_length_add_append]
      rfl
    have terminated : [a, b] = Bytes.crlf ↔ a = Ascii.carriageReturn ∧ b = Ascii.lineFeed := by
      simp [Bytes.crlf]
    simp only [readBody, cut, arrived, behind, sliceFrom_append, bind_ok, List.take_left]
    rw [if_neg (by simp)]
    simp only [terminated]
    split <;> rfl

/-! ## Commands -/

/-- Takes one element of an array off a stream. -/
def element (s : Bytes) : Except Mishap (Bytes × Bytes) := do
  let (header, rest) ← line s
  if header.head? = some Ascii.dollar then
    let announced ← length (← sliceFrom 1 header)
    if 0 ≤ announced ∧ announced ≤ maxBulk then body announced rest
    else throw (.framing (.badBulkLength announced))
  else
    throw (.framing (.notBulk header.head?))

/-- Takes `count` elements off a stream, one in each turn, and puts them after those already
read, which are listed latest first. -/
def elements : Nat → Nat → List Bytes → Bytes → Except Mishap (List Bytes × Bytes)
  | _, 0, found, s => return (found.reverse, s)
  | 0, _ + 1, _, _ => throw .turns
  | turns + 1, count + 1, found, s => do
    let (part, rest) ← element s
    elements turns count (part :: found) rest

/-- Takes an array off a stream that starts with an asterisk. -/
def array (turns : Nat) (s : Bytes) : Except Mishap (Command × Bytes) := do
  let (header, rest) ← line s
  let announced ← length (← sliceFrom 1 header)
  if announced ≤ 0 then
    return (.empty, rest)
  else if maxCount < announced then
    throw (.framing (.badCount announced))
  else
    let (parts, rest) ← elements turns (← word announced) [] rest
    return (⟨parts⟩, rest)

/-- Takes the next command off a stream, and looks at one line in each turn. -/
def command : Nat → Bytes → Except Mishap (Command × Bytes)
  | 0, _ => throw .turns
  | _ + 1, [] => throw (.framing .endOfInput)
  | turns + 1, first :: more =>
    if first = Ascii.star then array turns (first :: more)
    else do
      let (text, rest) ← line (first :: more)
      match Bytes.words text with
      | [] => command turns rest
      | parts => return (⟨parts⟩, rest)

theorem element_eq (s : Bytes) : element s = framed (readElement s) := by
  rw [element, line_eq, readElement]
  cases readLine s with
  | error fault => rfl
  | ok part =>
    obtain ⟨header, rest⟩ := part
    cases header with
    | nil => rfl
    | cons kind digits =>
      simp only [framed_ok, bind_ok, List.head?_cons, Option.some.injEq, sliceFrom_cons, length_eq]
      by_cases dollar : kind = Ascii.dollar
      · rw [if_pos dollar, if_neg (not_not.mpr dollar)]
        cases readLength digits with
        | error fault => rfl
        | ok announced =>
          simp only [framed_ok, bind_ok]
          split
          · next inside => exact body_eq inside.1 inside.2 rest
          · rfl
      · rw [if_neg dollar, if_pos dollar]
        rfl

theorem elements_eq {turns count : Nat} {found : List Bytes} {s : Bytes}
    (enough : s.length < turns) :
    elements turns count found s = framed (readElements count found s) := by
  induction count generalizing turns found s with
  | zero =>
    cases turns <;> rfl
  | succ count ih =>
    cases turns with
    | zero => cases enough
    | succ turns =>
      rw [elements, element_eq, readElements]
      cases taken : readElement s with
      | error fault => rfl
      | ok part =>
        -- Every element takes bytes, so the turns that are left are enough for the rest.
        have shorter : part.2.length < s.length := readElement_length taken
        exact ih (by omega)

theorem array_eq {turns : Nat} {s digits rest : Bytes}
    (header : readLine s = .ok (Ascii.star :: digits, rest)) (enough : rest.length < turns) :
    array turns s = framed (readArray digits rest) := by
  rw [array, line_eq, header, readArray]
  simp only [framed_ok, bind_ok, sliceFrom_cons, length_eq]
  cases readLength digits with
  | error fault => rfl
  | ok announced =>
    simp only [framed_ok, bind_ok]
    split
    · rfl
    · split
      · rfl
      · next some few =>
        have few : announced ≤ 1024 * 1024 := Int.not_lt.mp few
        rw [word_of_small (by omega) (by omega), bind_ok, elements_eq enough]
        cases readElements announced.toNat [] rest <;> rfl

/-- With more turns than bytes, a guarded reader of commands finds what the reader finds. -/
theorem command_eq {turns : Nat} {s : Bytes} (enough : s.length < turns) :
    command turns s = framed (readCommand s) := by
  induction turns generalizing s with
  | zero => cases enough
  | succ turns ih =>
    cases s with
    | nil =>
      rw [readCommand_nil]
      rfl
    | cons first more =>
      rw [command, readCommand_eq]
      cases taken : readLine (first :: more) with
      | error fault =>
        rw [array, line_eq, taken]
        split <;> rfl
      | ok part =>
        obtain ⟨text, rest⟩ := part
        have shorter := readLine_length taken
        have opens : text.head? = some Ascii.star ↔ first = Ascii.star := by
          rw [readLine_head taken (by decide) (by decide)]
          simp
        by_cases star : first = Ascii.star
        · obtain ⟨digits, rfl⟩ := List.head?_eq_some_iff.mp (opens.mpr star)
          rw [if_pos star]
          exact array_eq taken (by omega)
        · rw [if_neg star, line_eq, taken]
          simp only [framed_ok, bind_ok, if_neg (mt opens.mp star)]
          cases Bytes.words text with
          | nil => exact ih (by omega)
          | cons word words => rfl

/-- Takes commands off a stream, one in each turn, until a fault comes. -/
def stream : Nat → Bytes → Except Mishap (List Command × Fault)
  | 0, _ => throw .turns
  | turns + 1, s =>
    match command (turns + 1) s with
    | .error (.framing fault) => return ([], fault)
    | .error mishap => throw mishap
    | .ok (c, rest) => do
      let (later, fault) ← stream turns rest
      return (c :: later, fault)

theorem stream_eq {turns : Nat} {s : Bytes} (enough : s.length < turns) :
    stream turns s = .ok (commands.items s, commands.stop s) := by
  induction s using commands.induction generalizing turns with
  | stopped s fault stopped =>
    cases turns with
    | zero => cases enough
    | succ turns =>
      have read : readCommand s = .error fault := stopped
      rw [stream, command_eq enough, read, commands.items_of_error stopped,
        commands.stop_of_error stopped]
      rfl
  | item s c rest taken ih =>
    cases turns with
    | zero => cases enough
    | succ turns =>
      have read : readCommand s = .ok (c, rest) := taken
      have shorter := readCommand_length read
      rw [stream, command_eq enough, read, commands.items_of_ok taken, commands.stop_of_ok taken]
      simp only [framed_ok, ih (show rest.length < turns by omega), bind_ok]
      rfl

/-! ## Replies -/

/-- Takes the next reply off a stream. -/
def reply (s : Bytes) : Except Mishap (Reply × Bytes) := do
  match ← line s with
  | ([], _) => throw (.framing .emptyReply)
  | (kind :: text, rest) =>
    if kind = Ascii.plus then return (.status (Utf8.lossy text), rest)
    else if kind = Ascii.minus then return (.error (Utf8.lossy text), rest)
    else if kind = Ascii.colon then return (.integer (Int64.ofInt (← length text)), rest)
    else if kind = Ascii.dollar then
      let announced ← length text
      if announced < 0 then return (.null, rest)
      else if maxBulk < announced then throw (.framing (.badBulkLength announced))
      else
        let (bytes, rest) ← body announced rest
        return (.value bytes, rest)
    else if kind = Ascii.star then
      if (← length text) < 0 then return (.null, rest) else throw (.framing .arrayReply)
    else throw (.framing (.unknownReplyKind kind))

theorem reply_eq (s : Bytes) : reply s = framed (readReply s) := by
  rw [reply, line_eq, readReply]
  cases readLine s with
  | error fault => rfl
  | ok part =>
    obtain ⟨text, rest⟩ := part
    cases text with
    | nil => rfl
    | cons kind text =>
      simp only [framed_ok, bind_ok, length_eq]
      -- A status, an error, an integer, a bulk string, an array, or none of these.
      split
      · rfl
      split
      · rfl
      split
      · cases readLength text <;> rfl
      split
      · cases readLength text with
        | error fault => rfl
        | ok announced =>
          simp only [framed_ok, bind_ok]
          split
          · rfl
          split
          · rfl
          · next some few =>
            rw [body_eq (Int.not_lt.mp some) (Int.not_lt.mp few)]
            cases readBody announced.toNat rest <;> rfl
      split
      · cases readLength text with
        | error fault => rfl
        | ok announced =>
          simp only [framed_ok, bind_ok]
          split <;> rfl
      · rfl

end Guarded

end LogKv.Resp
