import LogKv.Proofs.UpperCase
import LogKv.Request

/-! How a verb can be spelled. A command name is looked up in upper case, and upper case is
that of all of Unicode, not of ASCII alone. Still, a verb is spelled by its name in any
letter case of ASCII and by nothing else, but for one odd spelling: the upper case of the
long s is the S of SET. -/
namespace LogKv

/-- A byte in upper case, if it is a small letter of ASCII. -/
def Ascii.upper (b : UInt8) : UInt8 := if 97 ≤ b ∧ b ≤ 122 then b - 32 else b

/-- The bytes are the verb's name in any letter case of ASCII, or SET with a long s. -/
def Verb.Spelled (verb : Verb) (name : Bytes) : Prop :=
  name.map Ascii.upper = Utf8.encode verb.name ∨
    verb = .set ∧ name.take 2 = Utf8.encode "ſ" ∧
      (name.drop 2).map Ascii.upper = Utf8.encode "ET"

instance (verb : Verb) (name : Bytes) : Decidable (verb.Spelled name) :=
  inferInstanceAs (Decidable (_ ∨ _))

/-! ## Letter case of ASCII in bytes -/

theorem Ascii.lt_of_upper {b : UInt8} (ascii : (upper b).toNat < 0x80) : b.toNat < 0x80 := by
  unfold upper at ascii
  split at ascii
  · next small =>
    have last : b.toNat ≤ 122 := UInt8.le_iff_toNat_le.mp small.2
    omega
  · exact ascii

namespace Utf8

theorem encode_ofList (chars : List Char) :
    encode (String.ofList chars) = chars.flatMap String.utf8EncodeChar := by
  rw [encode, String.toList_ofList]

theorem encode_append (text rest : String) :
    encode (text ++ rest) = encode text ++ encode rest := by
  rw [encode, String.toList_append, List.flatMap_append, encode, encode]

theorem encode_inj {text other : String} : encode text = encode other ↔ text = other := by
  refine ⟨fun same => ?_, congrArg encode⟩
  have read := decode_encode text
  rw [same, decode_encode] at read
  exact (Except.ok.inj read).symm

/-- Bytes of ASCII are a text, with one character for each byte. -/
theorem encode_of_ascii {s : Bytes} (ascii : ∀ b ∈ s, b.toNat < 0x80) :
    encode (String.ofList (s.map fun b => Char.ofNat b.toNat)) = s := by
  rw [encode_ofList]
  induction s with
  | nil => rfl
  | cons b s ih =>
    obtain ⟨now, later⟩ := List.forall_mem_cons.mp ascii
    rw [List.map_cons, List.flatMap_cons, ih later, encodeChar_one now]
    rfl

theorem char_of_ascii {s : Bytes} (ascii : ∀ b ∈ s, b.toNat < 0x80) :
    ∀ c ∈ s.map fun b => Char.ofNat b.toNat, c.toNat < 0x80 := by
  intro c member
  obtain ⟨b, found, rfl⟩ := List.mem_map.mp member
  have low := ascii b found
  rw [← Char.toNat_val, val_ofNat (.inl (by omega))]
  exact low

theorem lossy_of_ascii {s : Bytes} (ascii : ∀ b ∈ s, b.toNat < 0x80) :
    lossy s = String.ofList (s.map fun b => Char.ofNat b.toNat) := by
  have read := lossy_encode (String.ofList (s.map fun b => Char.ofNat b.toNat))
  rwa [encode_of_ascii ascii] at read

theorem encodeChar_toUpper {c : Char} (ascii : c.toNat < 0x80) :
    String.utf8EncodeChar c.toUpper = (String.utf8EncodeChar c).map Ascii.upper := by
  have table : ∀ code < 0x80, String.utf8EncodeChar (Char.ofNat code).toUpper =
      (String.utf8EncodeChar (Char.ofNat code)).map Ascii.upper := by decide +kernel
  simpa using table c.toNat ascii

/-- In upper case the bytes of a word of ASCII are those of the word in upper case. -/
theorem encode_toUpper {chars : List Char} (ascii : ∀ c ∈ chars, c.toNat < 0x80) :
    encode (String.ofList (chars.map Char.toUpper)) =
      (encode (String.ofList chars)).map Ascii.upper := by
  rw [encode_ofList, encode_ofList, List.flatMap_map, List.map_flatMap]
  exact List.flatMap_congr fun c member => encodeChar_toUpper (ascii c member)

end Utf8

/-! ## Words in upper case -/

namespace Text

theorem upper_append (text rest : String) : upper (text ++ rest) = upper text ++ upper rest := by
  rw [upper, String.toList_append, List.flatMap_append, String.ofList_append, upper, upper]

theorem upper_of_ascii {chars : List Char} (ascii : ∀ c ∈ chars, c.toNat < 0x80) :
    upper (String.ofList chars) = String.ofList (chars.map Char.toUpper) := by
  have single : chars.flatMap upperChar = chars.map Char.toUpper := by
    rw [List.map_eq_flatMap]
    exact List.flatMap_congr fun c member => upperChar_ascii (ascii c member)
  rw [upper, String.toList_ofList, single]

/-- Bytes of ASCII, read as text and put in upper case, are the same bytes in upper case. -/
theorem encode_upper_lossy {s : Bytes} (ascii : ∀ b ∈ s, b.toNat < 0x80) :
    Utf8.encode (upper (Utf8.lossy s)) = s.map Ascii.upper := by
  have chars := Utf8.char_of_ascii ascii
  rw [Utf8.lossy_of_ascii ascii, upper_of_ascii chars, Utf8.encode_toUpper chars,
    Utf8.encode_of_ascii ascii]

/-- Bytes that are a word of ASCII in upper case are a text that is. -/
theorem exists_text_of_upper {s : Bytes} {word : String}
    (ascii : (Utf8.encode word).all (·.toNat < 0x80))
    (spelled : s.map Ascii.upper = Utf8.encode word) :
    ∃ text, s = Utf8.encode text ∧ upper text = word := by
  have small : ∀ b ∈ s, b.toNat < 0x80 := fun b member => by
    have moved := List.all_eq_true.mp ascii _ (spelled ▸ List.mem_map_of_mem member)
    exact Ascii.lt_of_upper (of_decide_eq_true moved)
  refine ⟨Utf8.lossy s, ?_, Utf8.encode_inj.mp ((encode_upper_lossy small).trans spelled)⟩
  rw [Utf8.lossy_of_ascii small, Utf8.encode_of_ascii small]

/-- Where the upper case of a text holds no long upper case of a letter, the text is put in upper
case letter by letter. -/
theorem singles_of_flatMap {chars word : List Char}
    (short : ∀ letter ∈ longUpperCases, ¬letter.2.map Char.ofNat <:+: word)
    (upper : chars.flatMap upperChar = word) : chars.map upperChar = word.map ([·]) := by
  induction chars generalizing word with
  | nil =>
    subst upper
    rfl
  | cons c chars ih =>
    rw [List.flatMap_cons] at upper
    have single : ∃ capital, upperChar c = [capital] := by
      rcases upperChar_cases c with ⟨-, same⟩ | ⟨-, several | another | same⟩
      · exact ⟨_, same⟩
      · -- Its several letters would stand at the front of the word.
        obtain ⟨codes, listed, same⟩ := several
        rw [same] at upper
        exact absurd (List.prefix_append _ _).isInfix (upper ▸ short (c.toNat, codes) listed)
      · obtain ⟨run, -, -, -, same⟩ := another
        exact ⟨_, same⟩
      · exact ⟨_, same⟩
    obtain ⟨capital, single⟩ := single
    rw [single, List.singleton_append] at upper
    subst upper
    rw [List.map_cons, List.map_cons, single, ih _ rfl]
    exact fun letter listed inside => short letter listed (List.infix_cons inside)

/-- Capitals other than S and I are the upper case of letters of ASCII alone. -/
theorem toUpper_of_singles {chars word : List Char} (capitals : word.all Char.isUpper)
    (plain : 'S' ∉ word ∧ 'I' ∉ word)
    (singles : chars.map upperChar = word.map ([·])) : chars.map Char.toUpper = word := by
  induction word generalizing chars with
  | nil => rw [List.map_eq_nil_iff.mp singles, List.map_nil]
  | cons capital word ih =>
    obtain ⟨c, rest, rfl, single, others⟩ := List.map_eq_cons_iff.mp singles
    rw [List.all_cons, Bool.and_eq_true] at capitals
    obtain ⟨now, later⟩ := capitals
    simp only [List.mem_cons, not_or] at plain
    rcases (upperChar_eq_capital_iff now).mp single with same | ⟨odd, -⟩ | ⟨odd, -⟩
    · rw [List.map_cons, same, ih later ⟨plain.1.2, plain.2.2⟩ others]
    · exact absurd odd.symm plain.1.1
    · exact absurd odd.symm plain.2.1

/-- A text whose letters move as in ASCII is spelled by the bytes of the moved word. -/
theorem upper_encode_of_toUpper {chars word : List Char} (capitals : word.all Char.isUpper)
    (moved : chars.map Char.toUpper = word) :
    (Utf8.encode (String.ofList chars)).map Ascii.upper = Utf8.encode (String.ofList word) := by
  subst moved
  refine (Utf8.encode_toUpper fun c member => ascii_of_toUpper ?_).symm
  have capital := List.all_eq_true.mp capitals _ (List.mem_map_of_mem member)
  exact Nat.lt_of_le_of_lt (isUpper_range capital).2 (by decide)

theorem upper_encode_of_singles {chars word : List Char} (capitals : word.all Char.isUpper)
    (plain : 'S' ∉ word ∧ 'I' ∉ word) (singles : chars.map upperChar = word.map ([·])) :
    (Utf8.encode (String.ofList chars)).map Ascii.upper = Utf8.encode (String.ofList word) :=
  upper_encode_of_toUpper capitals (toUpper_of_singles capitals plain singles)

end Text

namespace Verb

theorem encode_name_ascii (verb : Verb) : (Utf8.encode verb.name).all (·.toNat < 0x80) := by
  cases verb <;> decide

theorem name_short (verb : Verb) :
    ∀ letter ∈ Text.longUpperCases, ¬letter.2.map Char.ofNat <:+: verb.name.toList := by
  cases verb <;> decide +kernel

theorem exists_text_of_spelled {verb : Verb} {name : Bytes} (spelled : verb.Spelled name) :
    ∃ text, name = Utf8.encode text ∧ Text.upper text = verb.name := by
  rcases spelled with plain | ⟨rfl, front, back⟩
  · exact Text.exists_text_of_upper verb.encode_name_ascii plain
  · obtain ⟨text, rest, upper⟩ := Text.exists_text_of_upper (by decide) back
    refine ⟨"ſ" ++ text, ?_, ?_⟩
    · rw [Utf8.encode_append, ← front, ← rest, List.take_append_drop]
    · rw [Text.upper_append, upper]
      decide +kernel

theorem singles_of_upper {verb : Verb} {text : String} (upper : Text.upper text = verb.name) :
    text.toList.map Text.upperChar = verb.name.toList.map ([·]) := by
  apply Text.singles_of_flatMap verb.name_short
  rw [← upper, Text.upper, String.toList_ofList]

theorem spelled_of_upper {verb : Verb} {text : String} (upper : Text.upper text = verb.name) :
    verb.Spelled (Utf8.encode text) := by
  have singles := singles_of_upper upper
  rw [← String.ofList_toList (s := text)]
  generalize text.toList = chars at singles
  cases verb with
  | get => exact .inl (Text.upper_encode_of_singles (by decide) (by decide) singles)
  | del => exact .inl (Text.upper_encode_of_singles (by decide) (by decide) singles)
  | set =>
    -- The S is the one letter of a verb that is also the upper case of another character.
    change chars.map Text.upperChar = ['S', 'E', 'T'].map ([·]) at singles
    obtain ⟨c, chars, rfl, first, others⟩ := List.map_eq_cons_iff.mp singles
    rcases (Text.upperChar_eq_capital_iff (by decide)).mp first with same | ⟨-, rfl⟩ | ⟨odd, -⟩
    · have rest : chars.map Char.toUpper = ['E', 'T'] :=
        Text.toUpper_of_singles (by decide) (by decide) others
      have moved : (c :: chars).map Char.toUpper = ['S', 'E', 'T'] := by
        rw [List.map_cons, same, rest]
      exact .inl (Text.upper_encode_of_toUpper (by decide) moved)
    · have bytes : Utf8.encode (String.ofList ('ſ' :: chars)) =
          Utf8.encode "ſ" ++ Utf8.encode (String.ofList chars) := by
        rw [Utf8.encode_ofList, Utf8.encode_ofList chars, List.flatMap_cons]
        rfl
      rw [bytes]
      exact .inr ⟨rfl, rfl, Text.upper_encode_of_singles (by decide) (by decide) others⟩
    · cases odd

/-- A replacement character is no letter of a verb, so a name with bytes that are no text is not
looked up by chance. -/
theorem clean_of_upper {verb : Verb} {text : String} (upper : Text.upper text = verb.name) :
    '\uFFFD' ∉ text.toList := by
  intro broken
  have shown : '\uFFFD' ∈ (Text.upper text).toList := by
    rw [Text.upper, String.toList_ofList]
    exact List.mem_flatMap.mpr ⟨'\uFFFD', broken, by decide +kernel⟩
  have letters : '\uFFFD' ∉ verb.name.toList := by cases verb <;> decide
  rw [upper] at shown
  exact letters shown

/-- The verb that a whole name is found to be is the one that it spells. -/
theorem ofName?_upper_lossy {verb : Verb} {name : Bytes} :
    ofName? (Text.upper (Utf8.lossy name)) = some verb ↔ verb.Spelled name := by
  rw [ofName?_eq_some_iff]
  constructor
  · intro same
    have bytes := Utf8.encode_lossy (clean_of_upper same.symm)
    exact bytes ▸ spelled_of_upper same.symm
  · intro spelled
    obtain ⟨text, rfl, upper⟩ := exists_text_of_spelled spelled
    rw [Utf8.lossy_encode, upper]

namespace Spelled
variable {verb : Verb} {name : Bytes}

theorem length_le (spelled : verb.Spelled name) : name.length ≤ 4 := by
  rcases spelled with plain | ⟨-, front, back⟩
  · have size : (Utf8.encode verb.name).length = 3 := by cases verb <;> rfl
    rw [← plain, List.length_map] at size
    omega
  · have two : (Utf8.encode "ſ").length = 2 := rfl
    have others : (Utf8.encode "ET").length = 2 := rfl
    rw [← front, List.length_take] at two
    rw [← back, List.length_map, List.length_drop] at others
    omega

/-- A spelled name is a text. -/
theorem decode (spelled : verb.Spelled name) : ∃ text, Utf8.decode name = .ok text := by
  obtain ⟨text, rfl, -⟩ := exists_text_of_spelled spelled
  exact ⟨text, Utf8.decode_encode text⟩

/-- A spelled name has no letter with a long upper case. -/
theorem single (spelled : verb.Spelled name) :
    ∀ c ∈ (Utf8.lossy name).toList, (Text.upperChar c).length = 1 := by
  obtain ⟨text, rfl, upper⟩ := exists_text_of_spelled spelled
  have singles := singles_of_upper upper
  rw [Utf8.lossy_encode]
  intro c member
  obtain ⟨capital, -, single⟩ := List.mem_map.mp (singles ▸ List.mem_map_of_mem member)
  rw [← single, List.length_singleton]

end Spelled

end Verb

/-! ## The cut -/

/-- All spellings are shorter than what is kept of a name. -/
theorem Verb.spelled_take {verb : Verb} {name : Bytes} :
    verb.Spelled (name.take Request.maxEchoedName) ↔ verb.Spelled name := by
  by_cases short : name.length ≤ Request.maxEchoedName
  · rw [List.take_of_length_le short]
  · have whole := Nat.lt_of_not_le short
    constructor
    · intro spelled
      have few := spelled.length_le
      rw [List.length_take_of_le (Nat.le_of_lt whole)] at few
      exact absurd few (by decide)
    · intro spelled
      have few := spelled.length_le
      rw [Request.maxEchoedName] at whole
      omega

/-- The cut of a name decides nothing about its verb. -/
theorem Verb.ofName?_shownName (name : Bytes) :
    ofName? (Request.shownName name) = ofName? (Text.upper (Utf8.lossy name)) := by
  ext verb
  rw [Request.shownName, ofName?_upper_lossy, ofName?_upper_lossy, spelled_take]

end LogKv
