import LogKv.Proofs.CheckedCommands
import LogKv.Proofs.ShownText

/-! How much of a command's name an error repeats. The name is cut before it is read as text
and put in upper case, so the cut bounds the bytes that are read and not those that are
shown. A text whose characters are no longer in upper case stays within the cut; other names
can take up to three times as many bytes, and bytes that begin no character always do. -/
namespace LogKv

/-- The command name that a fault repeats. -/
def Fault.echoed? : Fault → Option String
  | unknownCommand name | wrongArity name => some name
  | _ => none

namespace Utf8.Piece

/-- The bytes that a piece of a name takes in an error. -/
def echoSize (piece : Piece) : Nat := String.utf8Len (Text.upperChar piece.shown)

/-- How many bytes more than it takes up a piece takes in an error. -/
def gain (piece : Piece) : Nat := piece.echoSize - piece.size

/-- How many bytes less than it takes up a piece takes in an error. -/
def loss (piece : Piece) : Nat := piece.size - piece.echoSize

theorem echoSize_of_broken {piece : Piece} (broken : ∀ c, piece ≠ whole c) :
    piece.echoSize = 3 := by
  have three : String.utf8Len (Text.upperChar '\uFFFD') = 3 := by decide +kernel
  cases piece with
  | whole c => exact absurd rfl (broken c)
  | broken | unfinished => exact three

/-- What gains is a letter that is longer in upper case, or one or two bytes that begin a character
and are told with the three of the replacement character. -/
theorem gain_pos_iff {piece : Piece} :
    0 < piece.gain ↔
      (∃ c, piece = whole c ∧ c.utf8Size < String.utf8Len (Text.upperChar c)) ∨
      (∀ c, piece ≠ whole c) ∧ piece.size < 3 := by
  rw [gain, Nat.sub_pos_iff_lt]
  cases piece with
  | whole c => simp [size, echoSize, shown]
  | broken length => simp [echoSize_of_broken]
  | unfinished length => simp [echoSize_of_broken]

theorem sum_gain (pieces : List Piece) :
    (pieces.map echoSize).sum + (pieces.map loss).sum =
      (pieces.map size).sum + (pieces.map gain).sum := by
  induction pieces with
  | nil => rfl
  | cons piece pieces ih =>
    have one : piece.echoSize + piece.loss = piece.size + piece.gain := by
      rw [gain, loss]
      omega
    simp only [List.map_cons, List.sum_cons]
    omega

end Utf8.Piece

namespace Request
variable {name : Bytes}

theorem shownName_size_eq (name : Bytes) :
    (shownName name).utf8ByteSize =
      ((Utf8.pieces (name.take maxEchoedName)).map Utf8.Piece.echoSize).sum := by
  rw [shownName, Text.upper, String.utf8ByteSize_ofList, Utf8.lossy, String.toList_ofList]
  induction Utf8.pieces (name.take maxEchoedName) with
  | nil => rfl
  | cons piece pieces ih =>
    rw [List.map_cons, List.flatMap_cons, String.utf8Len_append, ih, List.map_cons, List.sum_cons,
      Utf8.Piece.echoSize]

/-- What is shown of a name is what the cut leaves of it, with what its pieces gain and lose. -/
theorem shownName_size_add (name : Bytes) :
    (shownName name).utf8ByteSize +
        ((Utf8.pieces (name.take maxEchoedName)).map Utf8.Piece.loss).sum =
      min name.length maxEchoedName +
        ((Utf8.pieces (name.take maxEchoedName)).map Utf8.Piece.gain).sum := by
  rw [shownName_size_eq, Utf8.Piece.sum_gain, Utf8.size_pieces, List.length_take, Nat.min_comm]

/-- A text is not shown longer than it is if none of its characters is longer in upper case. -/
theorem shownName_size_of_text {text : String}
    (read : Utf8.decode (name.take maxEchoedName) = .ok text)
    (steady : ∀ c ∈ text.toList, String.utf8Len (Text.upperChar c) ≤ c.utf8Size) :
    (shownName name).utf8ByteSize ≤ min name.length maxEchoedName := by
  have whole : Utf8.pieces (name.take maxEchoedName) = text.toList.map .whole := by
    rw [Utf8.decode_eq_ok_iff.mp read, Utf8.pieces_encode]
  have still : ((Utf8.pieces (name.take maxEchoedName)).map Utf8.Piece.gain).sum = 0 := by
    rw [whole, List.map_map]
    refine List.sum_eq_zero_iff_forall_eq_nat.mpr fun gained member => ?_
    obtain ⟨c, among, rfl⟩ := List.mem_map.mp member
    refine Nat.eq_zero_of_not_pos fun grows => ?_
    rcases Utf8.Piece.gain_pos_iff.mp grows with ⟨_, same, longer⟩ | ⟨broken, -⟩
    · obtain rfl := Utf8.Piece.whole.inj same
      exact Nat.not_lt.mpr (steady c among) longer
    · exact broken c rfl
  have account := shownName_size_add name
  omega

theorem shownName_size_of_ascii (ascii : ∀ b ∈ name.take maxEchoedName, b.toNat < 0x80) :
    (shownName name).utf8ByteSize = min name.length maxEchoedName := by
  rw [shownName, ← Utf8.encode_length, Text.encode_upper_lossy ascii, List.length_map,
    List.length_take, Nat.min_comm]

/-- The name that is repeated is the shown name of the command's first part. -/
theorem Checked.echoed {c : Command} {fault : Fault} {echoed : String}
    (refused : Checked c (.error fault)) (repeats : fault.echoed? = some echoed) :
    ∃ name operands, c.parts = name :: operands ∧ echoed = shownName name := by
  cases refused with
  | nameless => cases repeats
  | unknown none =>
    cases repeats
    exact ⟨_, _, rfl, rfl⟩
  | miscounted spelled count =>
    cases repeats
    exact ⟨_, _, rfl, (shownName_of_spelled spelled).symm⟩

/-- The cut of a name bounds how much of it is read and not how much is repeated.

Whatever fault a command is refused with, the name that it repeats takes as many bytes as the
pieces that the cut leaves when each is shown in upper case. So it keeps to the cut exactly if what
these pieces gain is no more than what they lose, together with what the name is short of the cut.
It takes at most three bytes for each byte that is left. A text stays within the cut if none of its
characters is longer in upper case, one of ASCII keeps its size, and a wrong number of operands is
told with the three letters of a verb. -/
theorem echoed_name_size {c : Command} {fault : Fault} {echoed : String}
    (refused : ofCommand c = .error fault) (repeats : fault.echoed? = some echoed) :
    ∃ name operands, c.parts = name :: operands ∧
      (let pieces := Utf8.pieces (name.take maxEchoedName)
      echoed.utf8ByteSize = (pieces.map Utf8.Piece.echoSize).sum ∧
      (echoed.utf8ByteSize ≤ maxEchoedName ↔
        (pieces.map Utf8.Piece.gain).sum ≤
          (pieces.map Utf8.Piece.loss).sum + (maxEchoedName - name.length))) ∧
      echoed.utf8ByteSize ≤ 3 * min name.length maxEchoedName ∧
      (∀ text, Utf8.decode (name.take maxEchoedName) = .ok text →
        (∀ c ∈ text.toList, String.utf8Len (Text.upperChar c) ≤ c.utf8Size) →
        echoed.utf8ByteSize ≤ min name.length maxEchoedName) ∧
      ((∀ b ∈ name.take maxEchoedName, b.toNat < 0x80) →
        echoed.utf8ByteSize = min name.length maxEchoedName) ∧
      (fault = .wrongArity echoed → echoed.utf8ByteSize = 3) := by
  have checked := ofCommand_eq_iff.mp refused
  obtain ⟨name, operands, parts, rfl⟩ := checked.echoed repeats
  have account := shownName_size_add name
  refine ⟨name, operands, parts, ⟨shownName_size_eq name, by omega⟩, shownName_size name,
    fun text => shownName_size_of_text, shownName_size_of_ascii, ?_⟩
  rintro rfl
  generalize shownName name = echoed at checked
  cases checked with
  | @miscounted _ _ verb spelled count => cases verb <;> rfl

/-- A long name of ASCII, and a verb without operands. -/
theorem echoed_name_size_samples :
    let long : Bytes := List.replicate 130 120
    (∃ echoed, ofCommand ⟨[long]⟩ = .error (.unknownCommand echoed) ∧
      echoed.utf8ByteSize = min 130 maxEchoedName) ∧
    ∃ echoed, ofCommand ⟨[Utf8.encode "get"]⟩ = .error (.wrongArity echoed) ∧
      echoed.utf8ByteSize = 3 := by
  intro long
  have unknown (verb : Verb) : ¬verb.Spelled long := by cases verb <;> decide +kernel
  have refused : ofCommand ⟨[long]⟩ = .error (.unknownCommand (shownName long)) :=
    Checked.eq (.unknown unknown)
  have letters : ∀ b ∈ long.take maxEchoedName, b.toNat < 0x80 := fun b member => by
    rw [List.eq_of_mem_replicate (List.mem_of_mem_take member)]
    decide
  obtain ⟨name, operands, parts, -, -, -, ascii, -⟩ := echoed_name_size refused rfl
  obtain rfl := (List.cons.inj parts).1
  have kept := ascii letters
  rw [List.length_replicate] at kept
  have lonely : ofCommand ⟨[Utf8.encode "get"]⟩ = .error (.wrongArity Verb.get.name) :=
    Checked.eq (.miscounted (by decide) (by decide))
  obtain ⟨-, -, -, -, -, -, -, verb⟩ := echoed_name_size lonely rfl
  exact ⟨⟨_, refused, kept⟩, _, lonely, verb rfl⟩

/-- A name of 128 bytes is not cut, and in upper case each of its letters takes three bytes in
place of two. -/
theorem echoed_name_longer_than_cut :
    let name := (List.replicate 64 (Utf8.encode "ŉ")).flatten
    name.length = maxEchoedName ∧
      ∃ echoed, ofCommand ⟨[name]⟩ = .error (.unknownCommand echoed) ∧
        echoed.utf8ByteSize = 192 ∧ maxEchoedName < echoed.utf8ByteSize := by
  intro name
  have shown : (shownName name).utf8ByteSize = 192 := by decide +kernel
  have unknown (verb : Verb) : ¬verb.Spelled name := by cases verb <;> decide +kernel
  exact ⟨rfl, _, Checked.eq (.unknown unknown), shown, shown ▸ by decide⟩

/-! ## Bytes that begin no character -/

theorem not_spelled_replicate (n : Nat) (verb : Verb) : ¬verb.Spelled (List.replicate n 255) := by
  cases n with
  | zero => cases verb <;> decide
  | succ n =>
    have broken : Utf8.decode (List.replicate (n + 1) 255) = .error (.broken 1 0) := by
      rw [List.replicate_succ, Utf8.decode, Utf8.pieces_cons]
      rfl
    exact Garbled.not_spelled (.noText broken) verb

theorem shownName_size_replicate (n : Nat) :
    (shownName (List.replicate n 255)).utf8ByteSize = 3 * min n maxEchoedName := by
  have broken (m : Nat) : Utf8.pieces (List.replicate m 255) = List.replicate m (.broken 1) := by
    induction m with
    | zero => exact Utf8.pieces_nil
    | succ m ih =>
      have front : Utf8.Piece.first 255 (List.replicate m 255) = (.broken 1, _) := rfl
      rw [List.replicate_succ, Utf8.pieces_of_first front, ih, List.replicate_succ]
  have three : (Utf8.Piece.broken 1).echoSize = 3 := Utf8.Piece.echoSize_of_broken (by simp)
  rw [shownName_size_eq, List.take_replicate, broken, List.map_replicate, three,
    List.sum_replicate_nat, Nat.mul_comm, Nat.min_comm]

/-- Each byte that begins no character is repeated as a replacement character, so three bytes for
each byte that the cut leaves are the least bound. -/
theorem unknown_replicate (n : Nat) (operands : List Bytes) :
    ∃ echoed, ofCommand ⟨List.replicate n 255 :: operands⟩ = .error (.unknownCommand echoed) ∧
      echoed.utf8ByteSize = 3 * min n maxEchoedName :=
  ⟨_, Checked.eq (.unknown (not_spelled_replicate n)), shownName_size_replicate n⟩

end Request

end LogKv
