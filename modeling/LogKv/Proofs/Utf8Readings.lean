import LogKv.Text.Utf8

/-! A text has one spelling. A character that reading finds at the front of a byte string
is spelled there, in the bytes that were taken for it, and in no others: the ranges of the
second byte leave out every other spelling. So bytes are read as a text exactly when they
are the bytes of that text, and a lossy reading without a replacement character lost
nothing. -/
namespace LogKv.Utf8

/-! ## The spelling of a code -/

section Spellings
variable {b b₁ b₂ b₃ : UInt8} {v lead : Nat}

theorem eq_ofNat (worth : b.toNat = v) : b = UInt8.ofNat v := by
  rw [← worth, UInt8.ofNat_toNat]

theorem val_ofNat (valid : v.isValidChar) : (Char.ofNat v).val.toNat = v := by
  rw [Char.ofNat, dif_pos valid]
  rfl

/-- A byte in the range of those that go on with a character. -/
def Continues (b : UInt8) : Prop := 0x80 ≤ b.toNat ∧ b.toNat ≤ 0xBF

theorem encodeChar_one (range : b.toNat < 0x80) :
    String.utf8EncodeChar (Char.ofNat b.toNat) = [b] := by
  have code := val_ofNat (v := b.toNat) (.inl (by omega))
  simp only [String.utf8EncodeChar, code]
  rw [if_pos (by omega), UInt8.ofNat_toNat]

theorem encodeChar_two (range : 0xC2 ≤ b.toNat ∧ b.toNat < 0xE0) (next : Continues b₁) :
    String.utf8EncodeChar (Char.ofNat (b.toNat % 32 * 64 + b₁.toNat % 64)) = [b, b₁] := by
  unfold Continues at next
  have code := val_ofNat (v := b.toNat % 32 * 64 + b₁.toNat % 64) (.inl (by omega))
  simp only [String.utf8EncodeChar, code]
  rw [if_neg (by omega), if_pos (by omega), ← eq_ofNat (b := b) (by omega),
    ← eq_ofNat (b := b₁) (by omega)]

/-- The first byte gives the lowest code of three bytes, `0xE0`, and the surrogates, `0xED`,
a narrower range for the second one. -/
theorem encodeChar_three (range : 0xE0 ≤ b.toNat ∧ b.toNat < 0xF0) (worth : b.toNat % 16 = lead)
    (next : Continues b₁) (least : lead = 0 → 0xA0 ≤ b₁.toNat)
    (surrogate : lead = 13 → b₁.toNat ≤ 0x9F) (last : Continues b₂) :
    String.utf8EncodeChar (Char.ofNat ((lead * 64 + b₁.toNat % 64) * 64 + b₂.toNat % 64)) =
      [b, b₁, b₂] := by
  unfold Continues at next last
  have valid : ((lead * 64 + b₁.toNat % 64) * 64 + b₂.toNat % 64).isValidChar := by
    unfold Nat.isValidChar
    omega
  have code := val_ofNat valid
  simp only [String.utf8EncodeChar, code]
  rw [if_neg (by omega), if_neg (by omega), if_pos (by omega), ← eq_ofNat (b := b) (by omega),
    ← eq_ofNat (b := b₁) (by omega), ← eq_ofNat (b := b₂) (by omega)]

/-- The first byte gives the lowest code of four bytes, `0xF0`, and the greatest, `0xF4`,
a narrower range for the second one. -/
theorem encodeChar_four (range : 0xF0 ≤ b.toNat ∧ b.toNat < 0xF5) (worth : b.toNat % 8 = lead)
    (next : Continues b₁) (least : lead = 0 → 0x90 ≤ b₁.toNat)
    (greatest : lead = 4 → b₁.toNat ≤ 0x8F) (third : Continues b₂) (last : Continues b₃) :
    String.utf8EncodeChar
      (Char.ofNat (((lead * 64 + b₁.toNat % 64) * 64 + b₂.toNat % 64) * 64 + b₃.toNat % 64)) =
      [b, b₁, b₂, b₃] := by
  unfold Continues at next third last
  have valid : (((lead * 64 + b₁.toNat % 64) * 64 + b₂.toNat % 64) * 64 +
      b₃.toNat % 64).isValidChar := by
    unfold Nat.isValidChar
    omega
  have code := val_ofNat valid
  simp only [String.utf8EncodeChar, code]
  rw [if_neg (by omega), if_neg (by omega), if_neg (by omega), ← eq_ofNat (b := b) (by omega),
    ← eq_ofNat (b := b₁) (by omega), ← eq_ofNat (b := b₂) (by omega),
    ← eq_ofNat (b := b₃) (by omega)]

end Spellings

/-! ## What reading finds -/

namespace Piece
variable {b low high : UInt8} {more lead taken : Nat} {s rest : Bytes} {c : Char}

theorem continued_whole (whole : continued (more + 1) low high lead taken s = (.whole c, rest)) :
    ∃ b s', s = b :: s' ∧ (low.toNat ≤ b.toNat ∧ b.toNat ≤ high.toNat) ∧
      continued more 0x80 0xBF (lead * 64 + b.toNat % 64) (taken + 1) s' = (.whole c, rest) := by
  cases s with
  | nil => cases whole
  | cons b s =>
    rw [continued] at whole
    split at whole
    · next inside => exact ⟨b, s, rfl, inside, whole⟩
    · cases whole

theorem continued_spells_two (range : 0xC2 ≤ b.toNat ∧ b.toNat < 0xE0)
    (whole : continued 1 0x80 0xBF (b.toNat % 32) 1 s = (.whole c, rest)) :
    b :: s = String.utf8EncodeChar c ++ rest := by
  obtain ⟨b₁, s, rfl, next, whole⟩ := continued_whole whole
  cases whole
  exact (congrArg (· ++ rest) (encodeChar_two range next)).symm

theorem continued_spells_three (range : 0xE0 ≤ b.toNat ∧ b.toNat < 0xF0)
    (worth : b.toNat % 16 = lead) (inner : 0x80 ≤ low.toNat ∧ high.toNat ≤ 0xBF)
    (least : lead = 0 → 0xA0 ≤ low.toNat) (surrogate : lead = 13 → high.toNat ≤ 0x9F)
    (whole : continued 2 low high lead 1 s = (.whole c, rest)) :
    b :: s = String.utf8EncodeChar c ++ rest := by
  obtain ⟨b₁, s, rfl, next, whole⟩ := continued_whole whole
  obtain ⟨b₂, s, rfl, last, whole⟩ := continued_whole whole
  cases whole
  have second : Continues b₁ := ⟨by omega, by omega⟩
  have spelled := encodeChar_three range worth second (by omega) (by omega) last
  exact (congrArg (· ++ rest) spelled).symm

theorem continued_spells_four (range : 0xF0 ≤ b.toNat ∧ b.toNat < 0xF5)
    (worth : b.toNat % 8 = lead) (inner : 0x80 ≤ low.toNat ∧ high.toNat ≤ 0xBF)
    (least : lead = 0 → 0x90 ≤ low.toNat) (greatest : lead = 4 → high.toNat ≤ 0x8F)
    (whole : continued 3 low high lead 1 s = (.whole c, rest)) :
    b :: s = String.utf8EncodeChar c ++ rest := by
  obtain ⟨b₁, s, rfl, next, whole⟩ := continued_whole whole
  obtain ⟨b₂, s, rfl, third, whole⟩ := continued_whole whole
  obtain ⟨b₃, s, rfl, last, whole⟩ := continued_whole whole
  cases whole
  have second : Continues b₁ := ⟨by omega, by omega⟩
  have spelled := encodeChar_four range worth second (by omega) (by omega) third last
  exact (congrArg (· ++ rest) spelled).symm

/-- A character that is found is spelled there. -/
theorem first_whole (whole : first b s = (.whole c, rest)) :
    b :: s = String.utf8EncodeChar c ++ rest := by
  unfold first at whole
  simp only [UInt8.lt_iff_toNat_lt, ← UInt8.toNat_inj, UInt8.reduceToNat] at whole
  split at whole
  · next ascii =>
    cases whole
    rw [encodeChar_one ascii]
    rfl
  split at whole
  · cases whole
  split at whole
  · exact continued_spells_two (by omega) whole
  split at whole
  · exact continued_spells_three (by omega) (by omega) (by decide) (by decide) (by decide) whole
  split at whole
  · exact continued_spells_three (by omega) (by omega) (by decide) (by decide) (by decide) whole
  split at whole
  · exact continued_spells_three (by omega) rfl (by decide) (by omega) (by omega) whole
  split at whole
  · exact continued_spells_four (by omega) (by omega) (by decide) (by decide) (by decide) whole
  split at whole
  · exact continued_spells_four (by omega) rfl (by decide) (by omega) (by omega) whole
  split at whole
  · exact continued_spells_four (by omega) (by omega) (by decide) (by decide) (by decide) whole
  · cases whole

end Piece

/-! ## Texts -/

/-- Bytes without a broken piece are the bytes of their characters. -/
theorem encode_of_pieces {s : Bytes} {chars : List Char} (whole : pieces s = chars.map .whole) :
    encode (String.ofList chars) = s := by
  rw [encode, String.toList_ofList]
  induction chars generalizing s with
  | nil =>
    cases s with
    | nil => rfl
    | cons b s => simp [pieces_cons] at whole
  | cons c chars ih =>
    cases s with
    | nil => simp at whole
    | cons b s =>
      rw [pieces_cons, List.map_cons] at whole
      obtain ⟨head, tail⟩ := List.cons.inj whole
      have spelled := Piece.first_whole (Prod.ext head rfl)
      rw [List.flatMap_cons, ih tail, spelled]

theorem textOf_eq_ok {before : List Char} {index : Nat} {found : List Piece} {text : String}
    (read : textOf before index found = .ok text) :
    ∃ chars, found = chars.map .whole ∧ text = String.ofList (before.reverse ++ chars) := by
  induction found generalizing before index with
  | nil => exact ⟨[], rfl, by simpa [textOf] using read.symm⟩
  | cons piece found ih =>
    cases piece with
    | whole c =>
      obtain ⟨chars, rfl, rfl⟩ := ih read
      exact ⟨c :: chars, rfl, by simp⟩
    | broken length => cases read
    | unfinished length => cases read

/-- Bytes are read as a text exactly when they are the bytes of that text. -/
theorem decode_eq_ok_iff {s : Bytes} {text : String} : decode s = .ok text ↔ s = encode text := by
  constructor
  · intro read
    obtain ⟨chars, whole, rfl⟩ := textOf_eq_ok read
    exact (encode_of_pieces whole).symm
  · rintro rfl
    exact decode_encode text

/-- Where reading shows no replacement character, nothing was replaced. -/
theorem encode_lossy {s : Bytes} (clean : '\uFFFD' ∉ (lossy s).toList) : encode (lossy s) = s := by
  rw [lossy, String.toList_ofList] at clean
  apply encode_of_pieces
  rw [List.map_map]
  refine (List.map_id _).symm.trans (List.map_congr_left fun piece found => ?_)
  cases piece with
  | whole c => rfl
  | broken length => exact absurd (List.mem_map_of_mem found) clean
  | unfinished length => exact absurd (List.mem_map_of_mem found) clean

end LogKv.Utf8
