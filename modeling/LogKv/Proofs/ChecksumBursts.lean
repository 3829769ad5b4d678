import Mathlib.Data.Nat.Bitwise
import LogKv.Crc32
import LogKv.Proofs.LayoutReadings

/-! What the checksum tells apart. The register is moved on by a linear map that loses
nothing, so two registers that differ once differ for ever, whatever bytes follow. And
the register is as wide as four bytes: taking four bytes in, one after the other, is
the same as taking in their word at once. So two strings that differ only in up to four
bytes in a row never have the same checksum, however long they are. -/
namespace LogKv.Crc32

/-! ## Moving the register on -/

theorem low_bit_iff {register : UInt32} : register &&& 1 = 1 ↔ register.toNat % 2 = 1 := by
  rw [← UInt32.toNat_inj, UInt32.toNat_and, UInt32.toNat_one, Nat.and_one_is_mod]

theorem toNat_half (register : UInt32) : (register >>> 1).toNat = register.toNat / 2 := by
  rw [UInt32.toNat_shiftRight]
  exact Nat.shiftRight_one _

theorem shift_eq (register : UInt32) :
    shift register = (register >>> 1) ^^^ (if register.toNat % 2 = 1 then polynomial else 0) := by
  simp only [shift, low_bit_iff]
  split
  · rfl
  · rw [UInt32.xor_zero]

theorem shift_xor (register other : UInt32) :
    shift (register ^^^ other) = shift register ^^^ shift other := by
  have taken : (if (register ^^^ other).toNat % 2 = 1 then polynomial else 0) =
      (if register.toNat % 2 = 1 then polynomial else 0) ^^^
        (if other.toNat % 2 = 1 then polynomial else 0) := by
    rw [UInt32.toNat_xor]
    simp only [Nat.xor_mod_two_eq_one]
    by_cases first : register.toNat % 2 = 1 <;> by_cases second : other.toNat % 2 = 1 <;>
      simp [first, second]
  rw [shift_eq, shift_eq, shift_eq, UInt32.shiftRight_xor, taken]
  ac_rfl

/-- Only the register that is zero is moved to zero: the highest bit shows the polynomial. -/
theorem shift_eq_zero {register : UInt32} (zero : shift register = 0) : register = 0 := by
  have half := toNat_half register
  have bound := register.toNat_lt
  rw [shift_eq] at zero
  split at zero
  · next odd =>
    have high : (register >>> 1).toNat = polynomial.toNat :=
      congrArg UInt32.toNat (UInt32.xor_eq_zero_iff.mp zero)
    have top : polynomial.toNat = 3988292384 := rfl
    omega
  · next even =>
    rw [UInt32.xor_zero] at zero
    rw [zero, UInt32.toNat_zero] at half
    rw [← UInt32.toNat_inj, UInt32.toNat_zero]
    omega

theorem shifts_xor (n : Nat) (register other : UInt32) :
    shifts n (register ^^^ other) = shifts n register ^^^ shifts n other := by
  induction n generalizing register other with
  | zero => rfl
  | succ n ih => rw [shifts, shift_xor, ih, shifts, shifts]

theorem shifts_eq_zero {n : Nat} {register : UInt32} (zero : shifts n register = 0) :
    register = 0 := by
  induction n generalizing register with
  | zero => exact zero
  | succ n ih => exact shift_eq_zero (ih zero)

theorem shifts_inj {n : Nat} {register other : UInt32} :
    shifts n register = shifts n other ↔ register = other := by
  constructor
  · intro same
    rw [← UInt32.xor_eq_zero_iff, ← shifts_xor] at same
    exact UInt32.xor_eq_zero_iff.mp (shifts_eq_zero same)
  · exact congrArg (shifts n)

theorem shifts_add (m n : Nat) (register : UInt32) :
    shifts (m + n) register = shifts n (shifts m register) := by
  induction m generalizing register with
  | zero => rw [Nat.zero_add, shifts]
  | succ m ih => rw [Nat.succ_add, shifts, ih, shifts]

/-- While the bits that leave the register are clear, it only moves down. -/
theorem shifts_clear {n m : Nat} (fits : 2 ^ n * m < 2 ^ 32) :
    shifts n (UInt32.ofNat (2 ^ n * m)) = UInt32.ofNat m := by
  induction n with
  | zero => rw [Nat.pow_zero, Nat.one_mul, shifts]
  | succ n ih =>
    have double : 2 ^ (n + 1) * m = 2 * (2 ^ n * m) := by rw [Nat.pow_succ', Nat.mul_assoc]
    rw [double] at fits ⊢
    have value : (UInt32.ofNat (2 * (2 ^ n * m))).toNat = 2 * (2 ^ n * m) :=
      UInt32.toNat_ofNat_of_lt' fits
    have halved : shift (UInt32.ofNat (2 * (2 ^ n * m))) = UInt32.ofNat (2 ^ n * m) := by
      rw [shift_eq, value, if_neg (by omega), UInt32.xor_zero, ← UInt32.toNat_inj, toNat_half,
        value, UInt32.toNat_ofNat']
      omega
    rw [shifts, halved]
    exact ih (by omega)

/-! ## Taking bytes in -/

theorem feed_inj {register other : UInt32} {b : UInt8} :
    feed register b = feed other b ↔ register = other := by
  rw [feed, feed, shifts_inj, UInt32.xor_left_inj]

/-- Registers that differ still differ after the same bytes. -/
theorem foldl_feed_inj {register other : UInt32} {s : Bytes} :
    s.foldl feed register = s.foldl feed other ↔ register = other := by
  induction s generalizing register other with
  | nil => exact Iff.rfl
  | cons b s ih => rw [List.foldl_cons, List.foldl_cons, ih, feed_inj]

theorem low_xor_high {low : Nat} (small : low < 2 ^ 8) (high : Nat) :
    low ^^^ 2 ^ 8 * high = 2 ^ 8 * high + low := by
  apply Nat.eq_of_testBit_eq
  intro i
  rw [Nat.testBit_xor, Nat.testBit_two_pow_mul, Nat.testBit_two_pow_mul_add high small]
  by_cases inside : i < 8
  · simp [inside, show ¬8 ≤ i by omega]
  · have power : 2 ^ 8 ≤ 2 ^ i := Nat.pow_le_pow_right (by decide) (by omega)
    simp [inside, show 8 ≤ i by omega, Nat.testBit_lt_two_pow (Nat.lt_of_lt_of_le small power)]

theorem ofNat_wordValue_cons (b : UInt8) (s : Bytes) :
    UInt32.ofNat (Layout.wordValue (b :: s)) =
      b.toUInt32 ^^^ UInt32.ofNat (2 ^ 8 * Layout.wordValue s) := by
  have low : b.toNat < 2 ^ 8 := b.toNat_lt
  have value : Layout.wordValue (b :: s) = b.toNat ^^^ 2 ^ 8 * Layout.wordValue s := by
    rw [low_xor_high low, Nat.add_comm]
    rfl
  have byte : UInt32.ofNat b.toNat = b.toUInt32 := by
    rw [← UInt32.toNat_inj, UInt8.toNat_toUInt32, UInt32.toNat_ofNat']
    omega
  rw [value, UInt32.ofNat_xor, byte]

/-- Up to four bytes go in one after the other as their word goes in at once. -/
theorem foldl_feed_word {s : Bytes} (few : s.length ≤ 4) (register : UInt32) :
    s.foldl feed register =
      shifts (8 * s.length) (register ^^^ UInt32.ofNat (Layout.wordValue s)) := by
  induction s generalizing register with
  | nil => exact UInt32.xor_zero.symm
  | cons b s ih =>
    rw [List.length_cons] at few
    have small : Layout.wordValue s < 256 ^ 3 :=
      Nat.lt_of_lt_of_le (Layout.wordValue_lt s) (Nat.pow_le_pow_right (by decide) (by omega))
    have clear := shifts_clear (n := 8) (m := Layout.wordValue s) (by omega)
    calc (b :: s).foldl feed register
      _ = shifts (8 * s.length) (feed register b ^^^ UInt32.ofNat (Layout.wordValue s)) :=
        ih (by omega) _
      _ = shifts (8 * s.length) (shifts 8 (register ^^^ b.toUInt32 ^^^
            UInt32.ofNat (2 ^ 8 * Layout.wordValue s))) := by
        rw [shifts_xor 8 (register ^^^ _), clear, feed]
      _ = shifts (8 * (b :: s).length)
            (register ^^^ UInt32.ofNat (Layout.wordValue (b :: s))) := by
        rw [← shifts_add, UInt32.xor_assoc, ← ofNat_wordValue_cons, List.length_cons]
        congr 1
        omega

theorem foldl_feed_ne {one other : Bytes} (same : one.length = other.length)
    (few : one.length ≤ 4) (differ : one ≠ other) (register : UInt32) :
    one.foldl feed register ≠ other.foldl feed register := by
  intro agree
  have bounded {s : Bytes} (short : s.length ≤ 4) : Layout.wordValue s < 2 ^ 32 :=
    Nat.lt_of_lt_of_le (Layout.wordValue_lt s) (Nat.pow_le_pow_right (n := 256) (by decide) short)
  rw [foldl_feed_word few, foldl_feed_word (same ▸ few), same, shifts_inj,
    UInt32.xor_right_inj] at agree
  have words := congrArg UInt32.toNat agree
  rw [UInt32.toNat_ofNat_of_lt' (bounded few), UInt32.toNat_ofNat_of_lt' (bounded (same ▸ few))]
    at words
  apply differ
  rw [← Layout.word_wordValue one, ← Layout.word_wordValue other, words, same]

/-- Strings that differ only in up to four bytes in a row have different checksums. -/
theorem checksum_ne (front back : Bytes) {one other : Bytes} (same : one.length = other.length)
    (few : one.length ≤ 4) (differ : one ≠ other) :
    checksum (front ++ (one ++ back)) ≠ checksum (front ++ (other ++ back)) := by
  simp only [checksum, List.foldl_append, ne_eq, UInt32.xor_left_inj, foldl_feed_inj]
  exact foldl_feed_ne same few differ _

end LogKv.Crc32
