import LogKv.Decimal
import Mathlib.Data.List.Basic
import Mathlib.Data.Nat.Digits.Defs

/-! What counts as a number in a length header. A numeral is an optional sign and
one or more digits, valued by their places; reading finds exactly the numerals
that fit a signed 64-bit word, however long they are, and every number that fits
is read back from the way it is written. -/
namespace LogKv.Decimal

/-- The number that a digit stands for. -/
def digitValue (d : UInt8) : Nat := d.toNat - Ascii.zero.toNat

/-- One or more decimal digits, worth `n` by place value. -/
structure Spelled (ds : Bytes) (n : Nat) : Prop where
  nonempty : ds ≠ []
  decimal : ∀ d ∈ ds, Ascii.zero ≤ d ∧ d ≤ Ascii.zero + 9
  worth : Nat.ofDigits 10 (ds.reverse.map digitValue) = n

/-- Digits after an optional sign, of any size. -/
inductive Signed : Bytes → Int → Prop where
  | bare {ds : Bytes} {n : Nat} (spelled : Spelled ds n) : Signed ds n
  | plus {ds : Bytes} {n : Nat} (spelled : Spelled ds n) : Signed (Ascii.plus :: ds) n
  | minus {ds : Bytes} {n : Nat} (spelled : Spelled ds n) : Signed (Ascii.minus :: ds) (-n)

/-- Digits after an optional sign whose value is a signed 64-bit number. -/
def Numeral (s : Bytes) (n : Int) : Prop := Signed s n ∧ -2 ^ 63 ≤ n ∧ n < 2 ^ 63

/-! ## Reading -/

theorem value_eq_ofDigits (ds : Bytes) : value ds = Nat.ofDigits 10 (ds.reverse.map digitValue) := by
  rw [Nat.ofDigits_eq_foldr, List.foldr_map, List.foldr_reverse, value]
  congr
  funext n d
  simp only [digitValue, Nat.cast_id]
  omega

theorem isDigit_iff (d : UInt8) : Ascii.isDigit d = true ↔ Ascii.zero ≤ d ∧ d ≤ Ascii.zero + 9 := by
  simp only [Ascii.isDigit, Bool.and_eq_true, decide_eq_true_eq, UInt8.le_iff_toNat_le,
    UInt8.lt_iff_toNat_lt]
  exact and_congr_right fun _ => Nat.lt_succ_iff

theorem magnitude?_eq_some_iff {ds : Bytes} {n : Nat} :
    magnitude? ds = some n ↔ Spelled ds n := by
  unfold magnitude?
  constructor
  · intro read
    split at read
    · next spelled =>
      obtain rfl := Option.some.inj read
      refine ⟨spelled.1, fun d member => ?_, (value_eq_ofDigits ds).symm⟩
      exact (isDigit_iff d).mp (List.all_eq_true.mp spelled.2 d member)
    · cases read
  · rintro ⟨nonempty, decimal, rfl⟩
    have spelled : ds.all Ascii.isDigit = true :=
      List.all_eq_true.mpr fun d member => (isDigit_iff d).mpr (decimal d member)
    rw [if_pos ⟨nonempty, spelled⟩, value_eq_ofDigits]

/-- A sign is no digit, so digits are never mistaken for a sign. -/
theorem Spelled.head_unsigned {d : UInt8} {ds : Bytes} {n : Nat} (spelled : Spelled (d :: ds) n) :
    d ≠ Ascii.plus ∧ d ≠ Ascii.minus := by
  have decimal := spelled.decimal d List.mem_cons_self
  constructor
  all_goals
    rintro rfl
    exact absurd decimal.1 (by decide)

theorem Signed.ne_nil {s : Bytes} {n : Int} (signed : Signed s n) : s ≠ [] := by
  cases signed with
  | bare spelled => exact spelled.nonempty
  | plus spelled | minus spelled => exact List.cons_ne_nil _ _

/-- What is true of signs and digits is true of each byte. -/
theorem Signed.forall_mem {p : UInt8 → Prop} {s : Bytes} {n : Int} (signed : Signed s n)
    (plus : p Ascii.plus) (minus : p Ascii.minus)
    (digit : ∀ d, Ascii.zero ≤ d → d ≤ Ascii.zero + 9 → p d) : ∀ b ∈ s, p b := by
  have digits {ds : Bytes} {m : Nat} (spelled : Spelled ds m) : ∀ b ∈ ds, p b :=
    fun b member => digit b (spelled.decimal b member).1 (spelled.decimal b member).2
  cases signed with
  | bare spelled => exact digits spelled
  | plus spelled => exact List.forall_mem_cons.mpr ⟨plus, digits spelled⟩
  | minus spelled => exact List.forall_mem_cons.mpr ⟨minus, digits spelled⟩

/-- Signs and digits are past the control characters. -/
theorem Signed.plus_le {s : Bytes} {n : Int} (signed : Signed s n) :
    ∀ b ∈ s, Ascii.plus ≤ b :=
  signed.forall_mem (by decide) (by decide) fun _ low _ => UInt8.le_trans (by decide) low

theorem unbounded?_eq_some_iff {s : Bytes} {n : Int} : unbounded? s = some n ↔ Signed s n := by
  constructor
  · intro read
    cases s with
    | nil => cases read
    | cons b ds =>
      simp only [unbounded?] at read
      split at read
      · next plus =>
        obtain ⟨m, spelled, rfl⟩ := Option.map_eq_some_iff.mp read
        exact plus ▸ .plus (magnitude?_eq_some_iff.mp spelled)
      · split at read
        · next minus =>
          obtain ⟨m, spelled, rfl⟩ := Option.map_eq_some_iff.mp read
          exact minus ▸ .minus (magnitude?_eq_some_iff.mp spelled)
        · obtain ⟨m, spelled, rfl⟩ := Option.map_eq_some_iff.mp read
          exact .bare (magnitude?_eq_some_iff.mp spelled)
  · intro signed
    cases signed with
    | bare spelled =>
      cases s with
      | nil => exact absurd rfl spelled.nonempty
      | cons b ds =>
        obtain ⟨notPlus, notMinus⟩ := spelled.head_unsigned
        rw [unbounded?, if_neg notPlus, if_neg notMinus, magnitude?_eq_some_iff.mpr spelled]
        rfl
    | plus spelled =>
      rw [unbounded?, if_pos rfl, magnitude?_eq_some_iff.mpr spelled]
      rfl
    | minus spelled =>
      rw [unbounded?, if_neg (by decide), if_pos rfl, magnitude?_eq_some_iff.mpr spelled]
      rfl

theorem read?_eq_some_iff_numeral {s : Bytes} {n : Int} : read? s = some n ↔ Numeral s n := by
  rw [read?_eq_some_iff, unbounded?_eq_some_iff, Numeral]
  refine and_congr_right fun _ => ?_
  simp only [least, greatest]
  omega

/-! ## Writing -/

private theorem toNat_of_mem_toDigits {n : Nat} {c : Char} (member : c ∈ Nat.toDigits 10 n) :
    48 ≤ c.toNat ∧ c.toNat ≤ 57 ∧ c.toNat.toUInt8.toNat = c.toNat := by
  have isDigit := Nat.isDigit_of_mem_toDigits (by decide) (by decide) member
  obtain ⟨low, high⟩ := Char.isDigit_iff_toNat.mp isDigit
  refine ⟨low, high, ?_⟩
  rw [Nat.toUInt8, UInt8.toNat_ofNat']
  exact Nat.mod_eq_of_lt (Nat.lt_of_le_of_lt high (by decide))

theorem spelled_digits (n : Nat) : Spelled (digits n) n := by
  refine ⟨fun empty => Nat.toDigits_ne_nil (List.map_eq_nil_iff.mp empty), ?_, ?_⟩
  · intro d member
    obtain ⟨c, written, rfl⟩ := List.mem_map.mp member
    obtain ⟨low, high, same⟩ := toNat_of_mem_toDigits written
    rw [UInt8.le_iff_toNat_le, UInt8.le_iff_toNat_le, same]
    exact ⟨low, high⟩
  · calc Nat.ofDigits 10 ((digits n).reverse.map digitValue)
        = value (digits n) := (value_eq_ofDigits _).symm
      _ = Nat.ofDigitChars 10 (Nat.toDigits 10 n) 0 := by
        rw [value, digits, List.foldl_map, Nat.ofDigitChars]
        refine List.foldl_ext _ _ _ fun m c member => ?_
        rw [(toNat_of_mem_toDigits member).2.2, Nat.mul_comm]
        rfl
      _ = n := Nat.ofDigitChars_toDigits (by decide) (by decide)

/-- A number is written as a numeral. -/
theorem write_signed (n : Int) : Signed (write n) n := by
  cases n with
  | ofNat n => exact .bare (spelled_digits n)
  | negSucc n => exact .minus (spelled_digits (n + 1))

/-- A number that does not fit is refused, and never read as another one. -/
theorem read?_write (n : Int) :
    read? (write n) = if least ≤ n ∧ n ≤ greatest then some n else none := by
  rw [read?, unbounded?_eq_some_iff.mpr (write_signed n)]

theorem write_length {n : Int} (low : -2 ^ 63 ≤ n) (high : n < 2 ^ 63) :
    (write n).length ≤ 20 := by
  have digits_length {m : Nat} (small : m < 10 ^ 19) : (digits m).length ≤ 19 := by
    rw [digits, List.length_map]
    exact Nat.toDigits_length 10 m 19 (by decide) small
  cases n with
  | ofNat n =>
    rw [Int.ofNat_eq_natCast] at high
    exact Nat.le_succ_of_le (digits_length (by omega))
  | negSucc n => exact Nat.succ_le_succ (digits_length (by omega))

theorem write_numeral {n : Int} (low : -2 ^ 63 ≤ n) (high : n < 2 ^ 63) : Numeral (write n) n :=
  ⟨write_signed n, low, high⟩

end LogKv.Decimal
