import Mathlib.Data.List.Infix
import Mathlib.Data.String.Basic
import LogKv.Proofs.Utf8Readings
import LogKv.Text.Upper

/-! What upper case does to single characters. A character of ASCII stays one, a character
beyond becomes up to three others, in at most six bytes, and only two characters beyond
ASCII become a single capital of ASCII: the long s and the dotless i. -/
namespace LogKv.Text

/-- A character of ASCII, a letter with a long upper case, a letter with another single one, and
any other character. -/
theorem upperChar_cases (c : Char) :
    (c.toNat < 0x80 ∧ upperChar c = [c.toUpper]) ∨ 0x80 ≤ c.toNat ∧
      ((∃ codes, (c.toNat, codes) ∈ longUpperCases ∧ upperChar c = codes.map Char.ofNat) ∨
        (∃ run ∈ caseRuns, run.first ≤ c.toNat ∧ c.toNat ≤ run.last ∧
          upperChar c = [Char.ofNat (c.toNat + run.shift).toNat]) ∨
        upperChar c = [c]) := by
  unfold upperChar
  split
  · next ascii => exact .inl ⟨ascii, rfl⟩
  · next beyond =>
    refine .inr ⟨Nat.le_of_not_lt beyond, ?_⟩
    split
    · next codes found =>
      obtain ⟨before, after, listed, -⟩ := List.lookup_eq_some_iff.mp found
      exact .inl ⟨codes, listed ▸ by simp, rfl⟩
    · split
      · next run found =>
        have inside := List.find?_some found
        simp only [CaseRun.contains, Bool.and_eq_true, decide_eq_true_eq] at inside
        exact .inr (.inl ⟨run, List.mem_of_find?_eq_some found, inside.1.1, inside.1.2, rfl⟩)
      · exact .inr (.inr rfl)

/-! ## Sizes -/

theorem utf8Size_eq_one_iff {c : Char} : c.utf8Size = 1 ↔ c.toNat < 0x80 := by
  rw [Char.utf8Size_eq_one_iff, UInt32.le_iff_toNat_le]
  exact Nat.lt_succ_iff.symm

theorem toUpper_ascii {c : Char} (ascii : c.toNat < 0x80) : c.toUpper.toNat < 0x80 := by
  have table : ∀ code < 0x80, (Char.ofNat code).toUpper.toNat < 0x80 := by decide
  simpa using table c.toNat ascii

theorem toUpper_of_beyond {c : Char} (beyond : 0x80 ≤ c.toNat) : c.toUpper = c := by
  apply dif_neg
  rintro ⟨-, small⟩
  have last : c.toNat ≤ 122 := UInt32.le_iff_toNat_le.mp small
  omega

theorem ascii_of_toUpper {c : Char} (ascii : c.toUpper.toNat < 0x80) : c.toNat < 0x80 := by
  by_contra beyond
  rw [toUpper_of_beyond (Nat.le_of_not_lt beyond)] at ascii
  exact beyond ascii

/-- In upper case a character takes at most three times its bytes. -/
theorem upperChar_size (c : Char) : String.utf8Len (upperChar c) ≤ 3 * c.utf8Size := by
  have long : ∀ letter ∈ longUpperCases, String.utf8Len (letter.2.map Char.ofNat) ≤ 6 := by
    decide +kernel
  have single (d : Char) : String.utf8Len [d] ≤ 4 := by simpa using d.utf8Size_le_four
  have size := c.utf8Size_pos
  have wide (beyond : 0x80 ≤ c.toNat) : c.utf8Size ≠ 1 := fun narrow =>
    absurd (utf8Size_eq_one_iff.mp narrow) (Nat.not_lt.mpr beyond)
  rcases upperChar_cases c with ⟨ascii, upper⟩ | ⟨beyond, several | another | upper⟩
  · have one : c.toUpper.utf8Size = 1 := utf8Size_eq_one_iff.mpr (toUpper_ascii ascii)
    rw [upper, String.utf8Len_cons, String.utf8Len_nil, one]
    omega
  · obtain ⟨codes, listed, upper⟩ := several
    have few := long (c.toNat, codes) listed
    have many := wide beyond
    rw [upper]
    exact Nat.le_trans few (by omega)
  · obtain ⟨run, -, -, -, upper⟩ := another
    have many := wide beyond
    rw [upper]
    exact Nat.le_trans (single _) (by omega)
  · have many := wide beyond
    rw [upper]
    exact Nat.le_trans (single _) (by omega)

/-! ## Capitals -/

theorem isUpper_range {c : Char} (capital : c.isUpper) : 65 ≤ c.toNat ∧ c.toNat ≤ 90 := by
  have range : 'A'.val ≤ c.val ∧ c.val ≤ 'Z'.val := of_decide_eq_true capital
  rwa [UInt32.le_iff_toNat_le, UInt32.le_iff_toNat_le] at range

/-- A capital of ASCII is the upper case of itself and of its small letter, and of at most one
other character. -/
theorem upperChar_eq_capital_iff {c capital : Char} (isCapital : capital.isUpper) :
    upperChar c = [capital] ↔
      c.toUpper = capital ∨ capital = 'S' ∧ c = 'ſ' ∨ capital = 'I' ∧ c = 'ı' := by
  have range := isUpper_range isCapital
  have never : ∀ letter ∈ longUpperCases, 2 ≤ letter.2.length := by decide
  have runs : ∀ run ∈ caseRuns, 0x80 ≤ run.first + run.shift ∨
      run = ⟨0x131, 0x131, 1, -232⟩ ∨ run = ⟨0x17F, 0x17F, 1, -300⟩ := by decide +kernel
  constructor
  · intro upper
    rcases upperChar_cases c with ⟨-, same⟩ | ⟨beyond, several | another | same⟩
    · exact .inl (List.singleton_inj.mp (same.symm.trans upper))
    · obtain ⟨codes, listed, same⟩ := several
      have long := never (c.toNat, codes) listed
      have short := congrArg List.length (same.symm.trans upper)
      rw [List.length_map, List.length_singleton] at short
      exact absurd long (by dsimp only; omega)
    · obtain ⟨run, listed, first, last, same⟩ := another
      have moved := List.singleton_inj.mp (same.symm.trans upper)
      rcases runs run listed with high | rfl | rfl
      · by_cases valid : (c.toNat + run.shift).toNat.isValidChar
        · have code := Utf8.val_ofNat valid
          rw [moved, Char.toNat_val] at code
          omega
        · rw [Char.ofNat, dif_neg valid] at moved
          rw [← moved] at range
          exact absurd range (by decide)
      · have dotless : c = 'ı' := Char.toNat_inj.mp (Nat.le_antisymm last first)
        subst dotless
        exact .inr (.inr ⟨moved.symm, rfl⟩)
      · have long : c = 'ſ' := Char.toNat_inj.mp (Nat.le_antisymm last first)
        subst long
        exact .inr (.inl ⟨moved.symm, rfl⟩)
    · have itself := List.singleton_inj.mp (same.symm.trans upper)
      rw [itself] at beyond
      omega
  · rintro (same | ⟨rfl, rfl⟩ | ⟨rfl, rfl⟩)
    · have ascii : c.toNat < 0x80 := ascii_of_toUpper (by rw [same]; omega)
      rw [upperChar_ascii ascii, same]
    · decide +kernel
    · decide +kernel

end LogKv.Text
