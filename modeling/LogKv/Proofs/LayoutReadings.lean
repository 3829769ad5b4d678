import LogKv.Proofs.LayoutRoundTrip

/-! Each part of the layout has one spelling. A reader takes a part off the front
of a byte string exactly when that front is the way the part is written, so what
was read can be written back, and no spelling is the start of another. Nothing
but the length of a byte string limits what can be written. -/
namespace LogKv.Layout

/-! ## Readers and spellings -/

section Spellings
variable {α : Type} {read : Read α} {write : α → Bytes} {fits : α → Prop}

/-- Reading finds a part exactly when the part fits and its spelling is in front,
and it takes that spelling and no more. -/
def Reads (read : Read α) (write : α → Bytes) (fits : α → Prop) : Prop :=
  ∀ s a rest, read s = .ok (a, rest) ↔ fits a ∧ s = write a ++ rest

theorem Reads.ok (reads : Reads read write fits) {a : α} (fit : fits a) (rest : Bytes) :
    read (write a ++ rest) = .ok (a, rest) :=
  (reads _ a rest).mpr ⟨fit, rfl⟩

/-- Two spellings in front of one string are the same spelling, with the same bytes after it. -/
theorem Reads.cancel (reads : Reads read write fits) {a b : α} {rest more : Bytes}
    (fitA : fits a) (fitB : fits b) (same : write a ++ rest = write b ++ more) :
    a = b ∧ rest = more := by
  have first := reads.ok fitA rest
  rw [same, reads.ok fitB more] at first
  obtain ⟨rfl, rfl⟩ := Prod.mk.inj (Except.ok.inj first)
  exact ⟨rfl, rfl⟩

end Spellings

/-! ## Words -/

theorem wordValue_lt (bytes : Bytes) : wordValue bytes < 256 ^ bytes.length := by
  induction bytes with
  | nil => exact Nat.one_pos
  | cons b bytes ih =>
    have low := b.toNat_lt
    have value : wordValue (b :: bytes) = b.toNat + 256 * wordValue bytes := rfl
    rw [value, List.length_cons, Nat.pow_succ]
    omega

theorem word_wordValue (bytes : Bytes) : word bytes.length (wordValue bytes) = bytes := by
  induction bytes with
  | nil => rfl
  | cons b bytes ih =>
    have low := b.toNat_lt
    have value : wordValue (b :: bytes) = b.toNat + 256 * wordValue bytes := rfl
    have high : (b.toNat + 256 * wordValue bytes) / 256 = wordValue bytes := by omega
    have first : UInt8.ofNat (b.toNat + 256 * wordValue bytes) = b := by
      rw [← UInt8.toNat_inj, UInt8.toNat_ofNat']
      omega
    rw [value, List.length_cons, word, high, ih, first]

theorem readWord_reads (width : Nat) : Reads (readWord width) (word width) (· < 256 ^ width) := by
  intro s n rest
  constructor
  · intro taken
    rw [readWord] at taken
    split at taken
    · cases taken
    · next cut =>
      obtain ⟨rfl, rfl⟩ := Bytes.cut?_eq_some_iff.mp cut
      obtain ⟨rfl, rfl⟩ := Prod.mk.inj (Except.ok.inj taken)
      exact ⟨wordValue_lt _, by rw [word_wordValue]⟩
  · rintro ⟨fits, rfl⟩
    exact readWord_word fits rest

theorem readVariant_reads {bound : Nat} (small : bound ≤ 2 ^ 32) :
    Reads (readVariant bound) variant (· < bound) := by
  intro s n rest
  constructor
  · intro taken
    rw [readVariant] at taken
    split at taken
    · cases taken
    · next word =>
      split at taken
      · next inside =>
        obtain ⟨rfl, rfl⟩ := Prod.mk.inj (Except.ok.inj taken)
        exact ⟨inside, ((readWord_reads 4 s _ _).mp word).2⟩
      · cases taken
  · rintro ⟨inside, rfl⟩
    exact readVariant_variant inside small rest

/-! ## Byte strings -/

theorem readSized_reads : Reads readSized sized Bytes.Addressable := by
  intro s bytes rest
  constructor
  · intro taken
    rw [readSized] at taken
    split at taken
    · cases taken
    · next length after word =>
      obtain ⟨fits, rfl⟩ := (readWord_reads 8 s length after).mp word
      split at taken
      · cases taken
      · next cut =>
        obtain ⟨rfl, rfl⟩ := Bytes.cut?_eq_some_iff.mp cut
        obtain ⟨rfl, rfl⟩ := Prod.mk.inj (Except.ok.inj taken)
        refine ⟨?_, (List.append_assoc _ _ _).symm⟩
        simpa [Bytes.Addressable] using fits
  · rintro ⟨fits, rfl⟩
    exact readSized_sized fits rest

theorem readOptional_reads :
    Reads readOptional optional fun value => ∀ bytes ∈ value, bytes.Addressable := by
  intro s value rest
  constructor
  · intro taken
    cases s with
    | nil => cases taken
    | cons tag s =>
      rw [readOptional] at taken
      split at taken
      · next absent =>
        obtain ⟨rfl, rfl⟩ := Prod.mk.inj (Except.ok.inj taken)
        exact ⟨by simp, congrArg (· :: s) absent⟩
      · split at taken
        · next present =>
          split at taken
          · cases taken
          · next sized =>
            obtain ⟨fits, rfl⟩ := (readSized_reads s _ _).mp sized
            obtain ⟨rfl, rfl⟩ := Prod.mk.inj (Except.ok.inj taken)
            exact ⟨by simpa using fits, congrArg (· :: _) present⟩
        · cases taken
  · rintro ⟨fits, rfl⟩
    exact readOptional_optional fits rest

end LogKv.Layout
