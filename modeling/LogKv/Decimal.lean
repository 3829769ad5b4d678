import LogKv.Bytes

/-!
Numbers in decimal, as length headers and integer replies write them. Reading takes an optional
sign and at least one digit, leading zeros allowed, and refuses every value outside the signed
64-bit range instead of wrapping it (`read?_eq_some_iff`). Written numbers have no plus sign and no
leading zero.
-/

namespace LogKv.Decimal

/-- The least 64-bit signed number. -/
def least : Int := -9223372036854775808

/-- The greatest 64-bit signed number. -/
def greatest : Int := 9223372036854775807

/-- The digits of a number, without leading zeros. -/
def digits (n : Nat) : Bytes := (Nat.toDigits 10 n).map fun c => c.toNat.toUInt8

/-- A number with a minus sign where it is negative. -/
def write : Int → Bytes
  | .ofNat n => digits n
  | .negSucc n => Ascii.minus :: digits (n + 1)

/-- The value of a run of digits. -/
def value (ds : Bytes) : Nat := ds.foldl (fun n d => n * 10 + (d.toNat - Ascii.zero.toNat)) 0

/-- The number written by one or more digits. -/
def magnitude? (ds : Bytes) : Option Nat :=
  if ds ≠ [] ∧ ds.all Ascii.isDigit then some (value ds) else none

/-- The number written by digits after an optional sign, whatever its size. -/
def unbounded? : Bytes → Option Int
  | [] => none
  | b :: ds =>
    if b = Ascii.plus then (magnitude? ds).map Int.ofNat
    else if b = Ascii.minus then (magnitude? ds).map fun n => -Int.ofNat n
    else (magnitude? (b :: ds)).map Int.ofNat

/-- Reads a signed 64-bit number. -/
def read? (s : Bytes) : Option Int :=
  match unbounded? s with
  | some n => if least ≤ n ∧ n ≤ greatest then some n else none
  | none => none

/-- A number is read exactly when it is spelled correctly and fits 64 bits. -/
theorem read?_eq_some_iff {s : Bytes} {n : Int} :
    read? s = some n ↔ unbounded? s = some n ∧ least ≤ n ∧ n ≤ greatest := by
  unfold read?
  cases unbounded? s with
  | none => simp
  | some m =>
    simp only [Option.some.injEq]
    split
    · next fits =>
      simp only [Option.some.injEq]
      exact ⟨fun h => ⟨h, h ▸ fits⟩, fun h => h.1⟩
    · next fits =>
      simp only [reduceCtorEq, false_iff, not_and]
      rintro rfl low high
      exact fits ⟨low, high⟩

end LogKv.Decimal
