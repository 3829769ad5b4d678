import LogKv.Bytes
import Mathlib.Data.List.Basic

/-! The words of a line of text. They are the maximal runs of bytes that are no
white space, in order, and splitting a line finds exactly these: the gaps around
and between them may be of any length and any mixture of the white bytes. -/
namespace LogKv.Bytes

/-- The white space that a line can hold. -/
def blanks : Bytes := [Ascii.space, Ascii.tab, Ascii.formFeed, Ascii.carriageReturn]

/-- Nothing but white space. -/
def Blank (line : Bytes) : Prop := ∀ b ∈ line, b ∈ blanks

/-- At least one byte and no white space. -/
def Solid (word : Bytes) : Prop := word ≠ [] ∧ ∀ b ∈ word, b ∉ blanks

-- The bytes of the line are tried, and not all bytes that there are.
instance : DecidablePred Blank := List.decidableBAll (· ∈ blanks)

instance : DecidablePred Solid := fun word =>
  @instDecidableAnd _ _ inferInstance (List.decidableBAll (· ∉ blanks) word)

/-- The line is made of these words and gaps. A word ends where the line does or
where white space follows, so that no run of other bytes is cut in two. -/
inductive HoldsWords : Bytes → List Bytes → Prop where
  | none {line : Bytes} (blank : Blank line) : HoldsWords line []
  | word {gap word after : Bytes} {words : List Bytes} (blank : Blank gap) (solid : Solid word)
      (ends : ∀ b ∈ after.head?, b ∈ blanks) (more : HoldsWords after words) :
      HoldsWords (gap ++ word ++ after) (word :: words)

theorem isBlank_of_mem {b : UInt8} (white : b ∈ blanks) : Ascii.isBlank b = true := by
  simp only [blanks, List.mem_cons, List.not_mem_nil, or_false] at white
  rcases white with rfl | rfl | rfl | rfl <;> rfl

theorem isBlank_eq_false {b : UInt8} (solid : b ∉ blanks) (unbroken : b ≠ Ascii.lineFeed) :
    Ascii.isBlank b = false := by
  simp only [blanks, List.mem_cons, List.not_mem_nil, or_false, not_or] at solid
  simp [Ascii.isBlank, solid, unbroken]

/-! ## Splitting finds the words -/

theorem words_of_gap {gap : Bytes} (rest : Bytes) (blank : ∀ b ∈ gap, Ascii.isBlank b = true) :
    words (gap ++ rest) = words rest := by
  induction gap with
  | nil => rfl
  | cons b gap ih =>
    have head : Ascii.isBlank b = true := blank b List.mem_cons_self
    rw [List.cons_append, words, List.splitOnP_cons_eq_if_modifyHead, if_pos head]
    exact ih fun c member => blank c (List.mem_cons_of_mem b member)

theorem words_of_word {word after : Bytes} (some : word ≠ [])
    (solid : ∀ b ∈ word, Ascii.isBlank b = false)
    (ends : ∀ b ∈ after.head?, Ascii.isBlank b = true) :
    words (word ++ after) = word :: words after := by
  cases after with
  | nil =>
    rw [List.append_nil, words, List.splitOnP_eq_singleton solid]
    simp [some, words]
  | cons b after =>
    have blank : Ascii.isBlank b = true := ends b rfl
    rw [words, words, List.splitOnP_append_cons_of_forall_mem solid b blank,
      List.splitOnP_cons_eq_if_modifyHead, if_pos blank]
    simp [some]

theorem HoldsWords.words_eq {line : Bytes} {ws : List Bytes} (holds : HoldsWords line ws)
    (unbroken : Ascii.lineFeed ∉ line) : words line = ws := by
  induction holds with
  | none blank =>
    have gap := words_of_gap [] fun b member => isBlank_of_mem (blank b member)
    rwa [List.append_nil] at gap
  | @word gap word after ws blank solid ends more ih =>
    simp only [List.mem_append, not_or] at unbroken
    obtain ⟨⟨-, inWord⟩, inAfter⟩ := unbroken
    have visible : ∀ b ∈ word, Ascii.isBlank b = false := fun b member =>
      isBlank_eq_false (solid.2 b member) fun feed => inWord (feed ▸ member)
    rw [List.append_assoc, words_of_gap _ fun b member => isBlank_of_mem (blank b member),
      words_of_word solid.1 visible fun b head => isBlank_of_mem (ends b head), ih inAfter]

/-- Every line has words, if only none. -/
theorem exists_holdsWords (line : Bytes) : ∃ ws, HoldsWords line ws := by
  induction line with
  | nil => exact ⟨[], .none (by simp [Blank])⟩
  | cons b line ih =>
    obtain ⟨ws, holds⟩ := ih
    by_cases white : b ∈ blanks
    · cases holds with
      | none blank => exact ⟨[], .none (List.forall_mem_cons.mpr ⟨white, blank⟩)⟩
      | word blank solid ends more =>
        exact ⟨_, .word (List.forall_mem_cons.mpr ⟨white, blank⟩) solid ends more⟩
    · by_cases ends : ∀ c ∈ line.head?, c ∈ blanks
      · have alone : Solid [b] := ⟨List.cons_ne_nil b [], by simpa using white⟩
        exact ⟨[b] :: ws, @HoldsWords.word [] [b] line ws (by simp [Blank]) alone ends holds⟩
      · cases holds with
        | none blank => exact absurd (fun c head => blank c (List.mem_of_mem_head? head)) ends
        | @word gap word after ws blank solid stops more =>
          cases gap with
          | nil =>
            have longer : Solid (b :: word) :=
              ⟨List.cons_ne_nil b word, List.forall_mem_cons.mpr ⟨white, solid.2⟩⟩
            exact ⟨(b :: word) :: ws, @HoldsWords.word [] _ after ws blank longer stops more⟩
          | cons c gap => exact absurd (by simpa using blank c List.mem_cons_self) ends

theorem words_eq_iff {line : Bytes} {ws : List Bytes} (unbroken : Ascii.lineFeed ∉ line) :
    words line = ws ↔ HoldsWords line ws := by
  constructor
  · rintro rfl
    obtain ⟨ws, holds⟩ := exists_holdsWords line
    exact holds.words_eq unbroken ▸ holds
  · exact fun holds => holds.words_eq unbroken

theorem words_eq_nil_iff {line : Bytes} (unbroken : Ascii.lineFeed ∉ line) :
    words line = [] ↔ Blank line := by
  rw [words_eq_iff unbroken]
  constructor
  · intro holds
    cases holds with
    | none blank => exact blank
  · exact .none

/-! ## More white space around the words -/

theorem HoldsWords.indent {line gap : Bytes} {ws : List Bytes} (holds : HoldsWords line ws)
    (blank : Blank gap) : HoldsWords (gap ++ line) ws := by
  cases holds with
  | none rest => exact .none (List.forall_mem_append.mpr ⟨blank, rest⟩)
  | word before solid ends more =>
    rw [← List.append_assoc, ← List.append_assoc]
    exact .word (List.forall_mem_append.mpr ⟨blank, before⟩) solid ends more

theorem HoldsWords.trail {line gap : Bytes} {ws : List Bytes} (holds : HoldsWords line ws)
    (blank : Blank gap) : HoldsWords (line ++ gap) ws := by
  induction holds with
  | none before => exact .none (List.forall_mem_append.mpr ⟨before, blank⟩)
  | @word before word after ws indented solid ends more ih =>
    rw [List.append_assoc]
    refine .word indented solid (fun b head => ?_) ih
    cases after with
    | nil => exact blank b (List.mem_of_mem_head? head)
    | cons c after => exact ends b head

/-- The words of a line are parts of it, and none of them is empty. -/
theorem HoldsWords.length_le {line : Bytes} {ws : List Bytes} (holds : HoldsWords line ws) :
    ws.length ≤ line.length := by
  induction holds with
  | none blank => exact Nat.zero_le _
  | word blank solid ends more ih =>
    have some := List.length_pos_iff.mpr solid.1
    simp only [List.length_cons, List.length_append]
    omega

theorem HoldsWords.flatten_length_le {line : Bytes} {ws : List Bytes} (holds : HoldsWords line ws) :
    ws.flatten.length ≤ line.length := by
  induction holds with
  | none blank => exact Nat.zero_le _
  | word blank solid ends more ih =>
    simp only [List.flatten_cons, List.length_append]
    omega

end LogKv.Bytes
