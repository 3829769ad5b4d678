import LogKv.Command
import LogKv.Resp.Line

/-!
Commands on the wire. A client sends a command as an array of bulk strings, or types it as a line
of words. Reading skips blank lines, then takes exactly one frame; `encode` writes arrays.
-/

namespace LogKv.Resp

/-- The array of bulk strings that stands for a command. -/
def encodeCommand (c : Command) : Bytes :=
  header Ascii.star c.parts.length ++ c.parts.flatMap bulk

/-- Takes one element of an array off a stream. -/
def readElement (s : Bytes) : Except Fault (Bytes × Bytes) :=
  match readLine s with
  | .error fault => .error fault
  | .ok ([], _) => .error (.notBulk none)
  | .ok (kind :: digits, rest) =>
    if kind ≠ Ascii.dollar then .error (.notBulk (some kind))
    else
      match readLength digits with
      | .error fault => .error fault
      | .ok length =>
        if 0 ≤ length ∧ length ≤ maxBulk then readBody length.toNat rest
        else .error (.badBulkLength length)

/-- Takes `count` elements off a stream and puts them after those already read, which are listed
latest first. -/
def readElements : Nat → List Bytes → Bytes → Except Fault (List Bytes × Bytes)
  | 0, found, s => .ok (found.reverse, s)
  | count + 1, found, s =>
    match readElement s with
    | .error fault => .error fault
    | .ok (element, rest) => readElements count (element :: found) rest

/-- Reads the rest of an array whose header line, without its first byte, is `digits`. An array
without elements, and an array of a negative count, are the empty command. -/
def readArray (digits s : Bytes) : Except Fault (Command × Bytes) :=
  match readLength digits with
  | .error fault => .error fault
  | .ok count =>
    if count ≤ 0 then .ok (.empty, s)
    else if maxCount < count then .error (.badCount count)
    else
      match readElements count.toNat [] s with
      | .error fault => .error fault
      | .ok (parts, rest) => .ok (⟨parts⟩, rest)

/-- Takes the next command off a stream. A line that starts with an asterisk opens an array; any
other line holds the words of a command, and is skipped when it has none. -/
def readCommand (s : Bytes) : Except Fault (Command × Bytes) :=
  match _taken : readLine s with
  | .error fault => .error fault
  | .ok (line, rest) =>
    if line.head? = some Ascii.star then readArray line.tail rest
    else
      match Bytes.words line with
      | [] => readCommand rest
      | parts => .ok (⟨parts⟩, rest)
termination_by s.length
decreasing_by
  have := readLine_length _taken
  omega

/-- One step of reading: what the first line says. -/
theorem readCommand_eq (s : Bytes) :
    readCommand s =
      match readLine s with
      | .error fault => .error fault
      | .ok (line, rest) =>
        if line.head? = some Ascii.star then readArray line.tail rest
        else
          match Bytes.words line with
          | [] => readCommand rest
          | parts => .ok (⟨parts⟩, rest) := by
  rw [readCommand]
  split <;> simp_all

theorem readElement_length {s element rest : Bytes} (h : readElement s = .ok (element, rest)) :
    rest.length < s.length := by
  unfold readElement at h
  split at h
  · simp at h
  · simp at h
  · next taken =>
    have := readLine_length taken
    split at h
    · simp at h
    · split at h
      · simp at h
      · split at h
        · have := readBody_length h
          omega
        · simp at h

theorem readElements_length {count : Nat} {found parts : List Bytes} {s rest : Bytes}
    (h : readElements count found s = .ok (parts, rest)) : rest.length ≤ s.length := by
  induction count generalizing found s with
  | zero =>
    obtain ⟨_, rfl⟩ := Prod.mk.inj (Except.ok.inj h)
    exact Nat.le_refl _
  | succ count ih =>
    unfold readElements at h
    split at h
    · simp at h
    · next taken =>
      have := readElement_length taken
      have := ih h
      omega

theorem readArray_length {digits s rest : Bytes} {c : Command}
    (h : readArray digits s = .ok (c, rest)) : rest.length ≤ s.length := by
  unfold readArray at h
  split at h
  · simp at h
  · split at h
    · obtain ⟨_, rfl⟩ := Prod.mk.inj (Except.ok.inj h)
      exact Nat.le_refl _
    · split at h
      · simp at h
      · split at h
        · simp at h
        · next read =>
          obtain ⟨_, rfl⟩ := Prod.mk.inj (Except.ok.inj h)
          exact readElements_length read

/-- Reading a command uses up part of the stream. -/
theorem readCommand_length {s rest : Bytes} {c : Command}
    (h : readCommand s = .ok (c, rest)) : rest.length < s.length := by
  induction hn : s.length using Nat.strongRecOn generalizing s with
  | ind n ih =>
    subst hn
    rw [readCommand_eq] at h
    split at h
    · simp at h
    · next taken =>
      have shorter := readLine_length taken
      split at h
      · have := readArray_length h
        omega
      · split at h
        · have := ih _ (by omega) h rfl
          omega
        · obtain ⟨_, rfl⟩ := Prod.mk.inj (Except.ok.inj h)
          omega

end LogKv.Resp
