import LogKv.Bytes

/-!
Text as bytes and bytes as text. Texts are written in UTF-8. Reading splits a byte string into
pieces: whole characters, and maximal starts of a character that the next byte, or the end of
the input, breaks off. Two readers are built on the pieces: `decode` refuses a broken piece and
says where it stands, `lossy` shows each one as a single replacement character. On the bytes of a
text both give that text (`decode_encode`, `lossy_encode`).
-/

namespace LogKv.Utf8

/-- The bytes of a text. -/
def encode (text : String) : Bytes := text.toList.flatMap String.utf8EncodeChar

/-- What stands at the front of a byte string that is read as UTF-8. -/
inductive Piece where
  /-- A whole character. -/
  | whole (c : Char)
  /-- The first `length` bytes start a character, but the byte after them cannot go on with it. -/
  | broken (length : Nat)
  /-- The input ends after the first `length` bytes of a character. -/
  | unfinished (length : Nat)
  deriving DecidableEq, Repr

/-- Reads the remaining `more` bytes of a character of which `taken` bytes, worth `code`, are
read. The next byte has to lie between `low` and `high`, those after it between `0x80` and
`0xBF`. -/
def Piece.continued : Nat → UInt8 → UInt8 → Nat → Nat → Bytes → Piece × Bytes
  | 0, _, _, code, _, s => (.whole (Char.ofNat code), s)
  | _ + 1, _, _, _, taken, [] => (.unfinished taken, [])
  | more + 1, low, high, code, taken, b :: s =>
    if low ≤ b ∧ b ≤ high then
      continued more 0x80 0xBF (code * 64 + b.toNat % 64) (taken + 1) s
    else (.broken taken, b :: s)

/-- The piece at the front of the string `b :: s`, and what follows it. The ranges of the second
byte leave out spellings that are longer than needed, surrogates, and codes past the last
character. -/
def Piece.first (b : UInt8) (s : Bytes) : Piece × Bytes :=
  if b < 0x80 then continued 0 0x80 0xBF b.toNat 1 s
  else if b < 0xC2 then (.broken 1, s)
  else if b < 0xE0 then continued 1 0x80 0xBF (b.toNat % 32) 1 s
  else if b = 0xE0 then continued 2 0xA0 0xBF 0 1 s
  else if b = 0xED then continued 2 0x80 0x9F 13 1 s
  else if b < 0xF0 then continued 2 0x80 0xBF (b.toNat % 16) 1 s
  else if b = 0xF0 then continued 3 0x90 0xBF 0 1 s
  else if b < 0xF4 then continued 3 0x80 0xBF (b.toNat % 8) 1 s
  else if b = 0xF4 then continued 3 0x80 0x8F 4 1 s
  else (.broken 1, s)

theorem Piece.continued_length (more : Nat) (low high : UInt8) (code taken : Nat) (s : Bytes) :
    (continued more low high code taken s).2.length ≤ s.length := by
  induction more generalizing low high code taken s with
  | zero => simp [continued]
  | succ more ih =>
    cases s with
    | nil => simp [continued]
    | cons b s =>
      simp only [continued]
      split
      · exact Nat.le_succ_of_le (ih ..)
      · exact Nat.le_refl _

/-- A piece takes at least its first byte. -/
theorem Piece.first_length (b : UInt8) (s : Bytes) : (first b s).2.length ≤ s.length := by
  unfold first
  repeat' split
  all_goals first | exact continued_length .. | exact Nat.le_refl _

/-- The pieces of a byte string in order, after those already found, latest first, in `found`. -/
def piecesAfter (found : List Piece) : Bytes → List Piece
  | [] => found.reverse
  | b :: s => piecesAfter ((Piece.first b s).1 :: found) (Piece.first b s).2
termination_by s => s.length
decreasing_by exact Nat.lt_succ_of_le (Piece.first_length b s)

/-- The pieces of a byte string, in order. -/
def pieces (s : Bytes) : List Piece := piecesAfter [] s

theorem piecesAfter_eq (found : List Piece) (s : Bytes) :
    piecesAfter found s = found.reverse ++ pieces s := by
  unfold pieces
  induction hn : s.length using Nat.strongRecOn generalizing found s with
  | ind n ih =>
    cases s with
    | nil => simp [piecesAfter]
    | cons b s =>
      have hlt : (Piece.first b s).2.length < n :=
        hn ▸ Nat.lt_succ_of_le (Piece.first_length b s)
      rw [piecesAfter, piecesAfter, ih _ hlt _ _ rfl,
        ih _ hlt [(Piece.first b s).1] _ rfl]
      simp

@[simp] theorem pieces_nil : pieces [] = [] := by simp [pieces, piecesAfter]

theorem pieces_cons (b : UInt8) (s : Bytes) :
    pieces (b :: s) = (Piece.first b s).1 :: pieces (Piece.first b s).2 := by
  rw [pieces, piecesAfter, piecesAfter_eq]
  rfl

/-- A continuation byte in range adds its six low bits. -/
theorem Piece.continued_succ (more code taken n : Nat) (low high : UInt8) (s : Bytes)
    (above : low.toNat ≤ n % 64 + 128) (below : n % 64 + 128 ≤ high.toNat) :
    continued (more + 1) low high code taken (UInt8.ofNat (n % 64 + 128) :: s) =
      continued more 0x80 0xBF (code * 64 + n % 64) (taken + 1) s := by
  have worth : (UInt8.ofNat (n % 64 + 128)).toNat = n % 64 + 128 := by
    rw [UInt8.toNat_ofNat']
    omega
  have six : (n % 64 + 128) % 64 = n % 64 := by omega
  have inside : low ≤ UInt8.ofNat (n % 64 + 128) ∧ UInt8.ofNat (n % 64 + 128) ≤ high := by
    rw [UInt8.le_iff_toNat_le, UInt8.le_iff_toNat_le, worth]
    exact ⟨above, below⟩
  rw [continued, if_pos inside, worth, six]

theorem pieces_of_first {b : UInt8} {s rest : Bytes} {piece : Piece}
    (h : Piece.first b s = (piece, rest)) : pieces (b :: s) = piece :: pieces rest := by
  rw [pieces_cons, h]

/-- A character's own bytes are read back as that character, whatever follows them. -/
theorem pieces_encodeChar (c : Char) (s : Bytes) :
    pieces (String.utf8EncodeChar c ++ s) = .whole c :: pieces s := by
  have valid : c.val.toNat < 0xD800 ∨ (0xDFFF < c.val.toNat ∧ c.val.toNat < 0x110000) := c.valid
  have back : Char.ofNat c.val.toNat = c := Char.ofNat_toNat c
  unfold String.utf8EncodeChar
  generalize c.val.toNat = v at valid back
  subst back
  dsimp only
  by_cases one : v ≤ 127
  · rw [if_pos one]
    simp only [List.cons_append, List.nil_append]
    apply pieces_of_first
    simp only [Piece.first, UInt8.lt_iff_toNat_lt, UInt8.toNat_ofNat',
      UInt8.reduceToNat]
    rw [if_pos (by omega), Piece.continued]
    exact congrArg (fun code => (Piece.whole (Char.ofNat code), s)) (by omega)
  rw [if_neg one]
  by_cases two : v ≤ 2047
  · rw [if_pos two]
    simp only [List.cons_append, List.nil_append]
    apply pieces_of_first
    simp only [Piece.first, UInt8.lt_iff_toNat_lt, UInt8.toNat_ofNat',
      UInt8.reduceToNat]
    rw [if_neg (by omega), if_neg (by omega), if_pos (by omega)]
    rw [Piece.continued_succ, Piece.continued]
    · exact congrArg (fun code => (Piece.whole (Char.ofNat code), s)) (by omega)
    all_goals
      simp only [UInt8.reduceToNat]
      omega
  rw [if_neg two]
  by_cases three : v ≤ 65535
  · rw [if_pos three]
    simp only [List.cons_append, List.nil_append]
    apply pieces_of_first
    simp only [Piece.first, UInt8.lt_iff_toNat_lt, ← UInt8.toNat_inj, UInt8.toNat_ofNat',
      UInt8.reduceToNat]
    rw [if_neg (by omega), if_neg (by omega), if_neg (by omega)]
    by_cases first : v / 4096 = 0
    · rw [if_pos (by omega)]
      rw [Piece.continued_succ, Piece.continued_succ, Piece.continued]
      · exact congrArg (fun code => (Piece.whole (Char.ofNat code), s)) (by omega)
      all_goals
        simp only [UInt8.reduceToNat]
        omega
    rw [if_neg (by omega)]
    by_cases surrogates : v / 4096 = 13
    · rw [if_pos (by omega)]
      rw [Piece.continued_succ, Piece.continued_succ, Piece.continued]
      · exact congrArg (fun code => (Piece.whole (Char.ofNat code), s)) (by omega)
      all_goals
        simp only [UInt8.reduceToNat]
        omega
    rw [if_neg (by omega), if_pos (by omega)]
    rw [Piece.continued_succ, Piece.continued_succ, Piece.continued]
    · exact congrArg (fun code => (Piece.whole (Char.ofNat code), s)) (by omega)
    all_goals
      simp only [UInt8.reduceToNat]
      omega
  · rw [if_neg three]
    simp only [List.cons_append, List.nil_append]
    apply pieces_of_first
    simp only [Piece.first, UInt8.lt_iff_toNat_lt, ← UInt8.toNat_inj, UInt8.toNat_ofNat',
      UInt8.reduceToNat]
    rw [if_neg (by omega), if_neg (by omega), if_neg (by omega), if_neg (by omega),
      if_neg (by omega), if_neg (by omega)]
    by_cases first : v / 262144 = 0
    · rw [if_pos (by omega)]
      rw [Piece.continued_succ, Piece.continued_succ, Piece.continued_succ, Piece.continued]
      · exact congrArg (fun code => (Piece.whole (Char.ofNat code), s)) (by omega)
      all_goals
        simp only [UInt8.reduceToNat]
        omega
    rw [if_neg (by omega)]
    by_cases last : v / 262144 = 4
    · rw [if_neg (by omega), if_pos (by omega)]
      rw [Piece.continued_succ, Piece.continued_succ, Piece.continued_succ, Piece.continued]
      · exact congrArg (fun code => (Piece.whole (Char.ofNat code), s)) (by omega)
      all_goals
        simp only [UInt8.reduceToNat]
        omega
    rw [if_pos (by omega)]
    rw [Piece.continued_succ, Piece.continued_succ, Piece.continued_succ, Piece.continued]
    · exact congrArg (fun code => (Piece.whole (Char.ofNat code), s)) (by omega)
    all_goals
      simp only [UInt8.reduceToNat]
      omega

/-- Reading what was written finds the characters of the text. -/
theorem pieces_encode (text : String) : pieces (encode text) = text.toList.map .whole := by
  unfold encode
  induction text.toList with
  | nil => simp
  | cons c rest ih => rw [List.flatMap_cons, pieces_encodeChar, ih, List.map_cons]

/-- The character shown for a piece: the character itself, or the replacement character. -/
def Piece.shown : Piece → Char
  | whole c => c
  | broken _ | unfinished _ => '\uFFFD'

/-- Reads bytes as text whatever they are, with one replacement character for each broken or
unfinished piece. -/
def lossy (s : Bytes) : String := String.ofList ((pieces s).map Piece.shown)

/-- The bytes of a text read as that text. -/
theorem lossy_encode (text : String) : lossy (encode text) = text := by
  have shown : Piece.shown ∘ Piece.whole = id := rfl
  rw [lossy, pieces_encode, List.map_map, shown, List.map_id, String.ofList_toList]

/-- Why bytes are not a text. -/
inductive Fault where
  /-- The `length` bytes from `index` on start a character that the next byte breaks off. -/
  | broken (length index : Nat)
  /-- The input ends inside the character that starts at `index`. -/
  | unfinished (index : Nat)
  deriving DecidableEq, Repr

/-- The wording of a fault. -/
def Fault.message : Fault → String
  | broken length index => s!"invalid utf-8 sequence of {length} bytes from index {index}"
  | unfinished index => s!"incomplete utf-8 byte sequence from index {index}"

/-- The text of a list of pieces, given the characters, latest first, and the number of bytes
before them. -/
def textOf (before : List Char) (index : Nat) : List Piece → Except Fault String
  | [] => .ok (String.ofList before.reverse)
  | .whole c :: rest => textOf (c :: before) (index + c.utf8Size) rest
  | .broken length :: _ => .error (.broken length index)
  | .unfinished _ :: _ => .error (.unfinished index)

/-- Reads bytes as text, if they are one. -/
def decode (s : Bytes) : Except Fault String := textOf [] 0 (pieces s)

theorem textOf_whole (before chars : List Char) (index : Nat) :
    textOf before index (chars.map .whole) = .ok (String.ofList (before.reverse ++ chars)) := by
  induction chars generalizing before index with
  | nil => simp [textOf]
  | cons c chars ih => simp [textOf, ih]

theorem decode_encode (text : String) : decode (encode text) = .ok text := by
  rw [decode, pieces_encode, textOf_whole, List.reverse_nil, List.nil_append,
    String.ofList_toList]

end LogKv.Utf8
