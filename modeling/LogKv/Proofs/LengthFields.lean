import LogKv.Proofs.EncodedStreams
import LogKv.Proofs.VerbNames

/-! Numbers in headers, exact to the last bit. A number is read from digits after an
optional sign whose value a word of 64 bits can hold, and from nothing else; what a
header shows is read back from it. No wider word is needed to read one: taken digit by
digit into a word, a number overflows only if it does not fit in the end. -/
namespace LogKv

namespace Decimal

variable {s : Bytes} {n m : Int}

/-! ## What is no number -/

/-- What keeps bytes from being a number of 64 bits. -/
inductive Unreadable : Bytes → Prop where
  | empty : Unreadable []
  /-- There is no digit behind a sign. -/
  | sign {b : UInt8} (sign : b = Ascii.plus ∨ b = Ascii.minus) : Unreadable [b]
  /-- The first byte is neither a sign nor a digit. -/
  | first {b : UInt8} {ds : Bytes} (unsigned : b ≠ Ascii.plus ∧ b ≠ Ascii.minus)
      (other : ¬(Ascii.zero ≤ b ∧ b ≤ Ascii.zero + 9)) : Unreadable (b :: ds)
  /-- A later byte is no digit. -/
  | later {b d : UInt8} {ds : Bytes} (member : d ∈ ds)
      (other : ¬(Ascii.zero ≤ d ∧ d ≤ Ascii.zero + 9)) : Unreadable (b :: ds)
  /-- The value does not fit. -/
  | wide {s : Bytes} {n : Int} (signed : Signed s n) (beyond : n < -2 ^ 63 ∨ 2 ^ 63 ≤ n) :
      Unreadable s

theorem Signed.unique (one : Signed s n) (two : Signed s m) : n = m :=
  Option.some.inj
    ((unbounded?_eq_some_iff.mpr one).symm.trans (unbounded?_eq_some_iff.mpr two))

theorem Unreadable.not_numeral (unreadable : Unreadable s) : ¬Numeral s n := by
  rintro ⟨signed, low, high⟩
  cases unreadable with
  | empty => exact signed.ne_nil rfl
  | sign sign =>
    cases signed with
    | bare spelled => exact sign.elim spelled.head_unsigned.1 spelled.head_unsigned.2
    | plus spelled | minus spelled => exact spelled.nonempty rfl
  | first unsigned other =>
    cases signed with
    | bare spelled => exact other (spelled.decimal _ List.mem_cons_self)
    | plus spelled => exact unsigned.1 rfl
    | minus spelled => exact unsigned.2 rfl
  | later member other =>
    cases signed with
    | bare spelled => exact other (spelled.decimal _ (List.mem_cons_of_mem _ member))
    | plus spelled | minus spelled => exact other (spelled.decimal _ member)
  | wide signed' beyond =>
    obtain rfl := signed.unique signed'
    omega

theorem Signed.numeral_or_unreadable (signed : Signed s n) : Numeral s n ∨ Unreadable s := by
  by_cases fits : -2 ^ 63 ≤ n ∧ n < 2 ^ 63
  · exact .inl ⟨signed, fits⟩
  · exact .inr (.wide signed (by omega))

theorem numeral_or_unreadable (s : Bytes) : (∃ n, Numeral s n) ∨ Unreadable s := by
  have decided {n : Int} (signed : Signed s n) : (∃ n, Numeral s n) ∨ Unreadable s :=
    signed.numeral_or_unreadable.imp_left fun numeral => ⟨n, numeral⟩
  cases s with
  | nil => exact .inr .empty
  | cons b ds =>
    by_cases digits : ∀ d ∈ ds, Ascii.zero ≤ d ∧ d ≤ Ascii.zero + 9
    · by_cases sign : b = Ascii.plus ∨ b = Ascii.minus
      · by_cases alone : ds = []
        · subst alone
          exact .inr (.sign sign)
        · have spelled : Spelled ds _ := ⟨alone, digits, rfl⟩
          rcases sign with rfl | rfl
          · exact decided (.plus spelled)
          · exact decided (.minus spelled)
      · by_cases digit : Ascii.zero ≤ b ∧ b ≤ Ascii.zero + 9
        · exact decided (.bare ⟨by simp, List.forall_mem_cons.mpr ⟨digit, digits⟩, rfl⟩)
        · exact .inr (.first (not_or.mp sign) digit)
    · obtain ⟨d, member, other⟩ : ∃ d ∈ ds, ¬(Ascii.zero ≤ d ∧ d ≤ Ascii.zero + 9) := by
        simpa using digits
      exact .inr (.later member other)

theorem unreadable_iff : Unreadable s ↔ ¬∃ n, Numeral s n :=
  ⟨fun unreadable ⟨_, numeral⟩ => unreadable.not_numeral numeral,
    (numeral_or_unreadable s).resolve_left⟩

theorem Signed.visible (signed : Signed s n) : ∀ b ∈ s, Ascii.space < b ∧ b.toNat < 0x80 := by
  refine signed.forall_mem (by decide) (by decide) fun d low high => ⟨?_, ?_⟩
  · exact UInt8.lt_of_lt_of_le (by decide) low
  · exact Nat.lt_of_le_of_lt (UInt8.le_iff_toNat_le.mp high) (by decide)

theorem Signed.decode (signed : Signed s n) : ∃ text, Utf8.decode s = .ok text := by
  have ascii := Utf8.encode_of_ascii fun b member => (signed.visible b member).2
  exact ⟨_, Utf8.decode_eq_ok_iff.mpr ascii.symm⟩

/-! ## Reading with one word -/

/-- A number in a word, if it fits. -/
def word? (n : Int) : Option Int64 :=
  if -2 ^ 63 ≤ n ∧ n < 2 ^ 63 then some (Int64.ofInt n) else none

/-- A number that has grown by one digit, if neither step overflows. The digits of a
negative number count down. -/
def push? (sign : Int) (w : Int64) (d : UInt8) : Option Int64 :=
  (word? (w.toInt * 10)).bind fun tens => word? (tens.toInt + sign * digitValue d)

/-- Takes one or more digits into a word. -/
def pushAll? (sign : Int) (ds : Bytes) : Option Int64 :=
  if ds ≠ [] ∧ ds.all Ascii.isDigit then ds.foldlM (push? sign) 0 else none

/-- Reads a number with no other numbers than words of 64 bits. -/
def readWord? : Bytes → Option Int64
  | [] => none
  | b :: ds =>
    if b = Ascii.plus then pushAll? 1 ds
    else if b = Ascii.minus then pushAll? (-1) ds
    else pushAll? 1 (b :: ds)

theorem word?_eq_some_iff {w : Int64} : word? n = some w ↔ w.toInt = n := by
  rw [word?]
  split
  · next fits =>
    rw [Option.some.injEq, ← Int64.toInt_inj, Int64.toInt_ofInt_of_le fits.1 fits.2, eq_comm]
  · next wide =>
    have low := w.le_toInt
    have high := w.toInt_lt
    simp only [reduceCtorEq, false_iff]
    rintro rfl
    exact wide ⟨low, high⟩

theorem word?_eq_none_iff : word? n = none ↔ n < -2 ^ 63 ∨ 2 ^ 63 ≤ n := by
  rw [word?]
  split <;> simp only [reduceCtorEq, false_iff, true_iff] <;> omega

theorem le_foldl (n : Nat) (ds : Bytes) : n ≤ ds.foldl (fun n d => n * 10 + digitValue d) n := by
  induction ds generalizing n with
  | nil => exact Nat.le_refl n
  | cons d ds ih =>
    have longer := ih (n * 10 + digitValue d)
    rw [List.foldl_cons]
    omega

section Pushing
variable {sign : Int} (signs : sign = 1 ∨ sign = -1)
include signs

theorem word?_of_le {small large : Nat} (wide : word? (sign * small) = none)
    (le : small ≤ large) : word? (sign * large) = none := by
  rw [word?_eq_none_iff] at wide ⊢
  rcases signs with rfl | rfl <;> omega

theorem push?_eq {w : Int64} {n : Nat} (held : w.toInt = sign * n) (d : UInt8) :
    push? sign w d = word? (sign * (n * 10 + digitValue d : Nat)) := by
  have shifted : sign * n * 10 = sign * (n * 10 : Nat) := by
    rcases signs with rfl | rfl <;> omega
  rw [push?, held, shifted]
  cases tens : word? (sign * (n * 10 : Nat)) with
  | none => exact (word?_of_le signs tens (Nat.le_add_right _ _)).symm
  | some t =>
    rw [Option.bind_some, word?_eq_some_iff.mp tens, Int.natCast_add, Int.mul_add]

/-- Taking in digits overflows on the way only if it would in the end. -/
theorem foldlM_push? {w : Int64} {n : Nat} (held : w.toInt = sign * n) (ds : Bytes) :
    ds.foldlM (push? sign) w =
      word? (sign * (ds.foldl (fun n d => n * 10 + digitValue d) n : Nat)) := by
  induction ds generalizing w n with
  | nil => exact (word?_eq_some_iff.mpr held).symm
  | cons d ds ih =>
    rw [List.foldlM_cons, List.foldl_cons, push?_eq signs held]
    cases pushed : word? (sign * (n * 10 + digitValue d : Nat)) with
    | none =>
      -- The digits that follow only add to what is too much already.
      exact (word?_of_le signs pushed (le_foldl _ ds)).symm
    | some next => exact ih (word?_eq_some_iff.mp pushed)

theorem pushAll?_eq (ds : Bytes) :
    pushAll? sign ds = ((magnitude? ds).map fun n => sign * Int.ofNat n).bind word? := by
  rw [pushAll?, magnitude?]
  split
  · exact foldlM_push? signs (by simp) ds
  · rfl

end Pushing

theorem readWord?_eq (s : Bytes) : readWord? s = (unbounded? s).bind word? := by
  cases s with
  | nil => rfl
  | cons b ds =>
    rw [readWord?, unbounded?, pushAll?_eq (.inl rfl), pushAll?_eq (.inl rfl),
      pushAll?_eq (.inr rfl)]
    simp only [Int.one_mul, Int.neg_mul]
    split
    · rfl
    split <;> rfl

/-- A word is read exactly where its number is. -/
theorem readWord?_eq_some_iff {w : Int64} : readWord? s = some w ↔ Numeral s w.toInt := by
  rw [readWord?_eq, Option.bind_eq_some_iff]
  simp only [word?_eq_some_iff, unbounded?_eq_some_iff]
  constructor
  · rintro ⟨n, signed, rfl⟩
    exact ⟨signed, w.le_toInt, w.toInt_lt⟩
  · rintro ⟨signed, -⟩
    exact ⟨_, signed, rfl⟩

end Decimal

namespace Resp

theorem readLength_of_unreadable {digits : Bytes} (unreadable : Decimal.Unreadable digits) :
    readLength digits = .error (.badLength digits) := by
  cases read : Decimal.read? digits with
  | some n =>
    exact absurd (Decimal.read?_eq_some_iff_numeral.mp read) unreadable.not_numeral
  | none => rw [readLength, read]

/-- A number in a header is read exactly, or it is refused.

Bytes are read as the number that they spell: digits after an optional sign, worth no more
than 64 bits hold. All others are refused with a report that shows them: bytes without a
digit, with a blank or anything else that is no digit, that are no text, or whose digits are
worth too much, however many there are. Reading with words of 64 bits that are checked for
overflow finds the same numbers and refuses the same bytes. And whatever number a header is
written with, its line is read back, and the number from that. -/
theorem length_fields_exact :
    (∀ digits n, readLength digits = .ok n ↔ Decimal.Numeral digits n) ∧
    (∀ digits, Decimal.Unreadable digits ↔ ¬∃ n, Decimal.Numeral digits n) ∧
    (∀ digits, Decimal.Unreadable digits → readLength digits = .error (.badLength digits) ∧
      (Fault.badLength digits).toFault =
        .protocol ("invalid length '" ++ Utf8.lossy digits ++ "'")) ∧
    (∀ digits, (∃ b ∈ digits, b = Ascii.space ∨ 0x80 ≤ b.toNat) ∨
      (∃ fault, Utf8.decode digits = .error fault) → Decimal.Unreadable digits) ∧
    (∀ digits w, Decimal.readWord? digits = some w ↔ readLength digits = .ok w.toInt) ∧
    ∀ kind (n : Int64) rest, kind ≠ Ascii.lineFeed →
      readLine (header kind n.toInt ++ rest) = .ok (kind :: Decimal.write n.toInt, rest) ∧
        readLength (Decimal.write n.toInt) = .ok n.toInt := by
  refine ⟨fun digits n => readLength_eq_ok_iff, fun digits => Decimal.unreadable_iff,
    fun digits unreadable => ⟨readLength_of_unreadable unreadable, rfl⟩,
    fun digits odd => Decimal.unreadable_iff.mpr fun ⟨n, numeral⟩ => ?_, fun digits w => ?_,
    fun kind n rest visible => ?_⟩
  · rcases odd with ⟨b, member, odd⟩ | ⟨fault, broken⟩
    · have ⟨low, high⟩ := numeral.1.visible b member
      rcases odd with rfl | beyond
      · exact UInt8.lt_irrefl _ low
      · omega
    · obtain ⟨text, read⟩ := numeral.1.decode
      rw [read] at broken
      cases broken
  · rw [Decimal.readWord?_eq_some_iff, readLength_eq_ok_iff]
  · have line := holdsLine_header kind visible.symm n.le_toInt n.toInt_lt
    exact ⟨readLine_reads.ok line rest,
      readLength_eq_ok_iff.mpr (Decimal.write_numeral n.le_toInt n.toInt_lt)⟩

/-- The least number with a sign and zeros in front of it, the first one that is too great, bytes
that are no text, and the header of the least number. -/
theorem length_fields_exact_at_limits :
    let least : Bytes := Ascii.minus :: Utf8.encode "009223372036854775808"
    let tooGreat : Bytes := Utf8.encode "9223372036854775808"
    readLength least = .ok (-2 ^ 63) ∧
    Decimal.readWord? least = some Int64.minValue ∧
    Decimal.Unreadable tooGreat ∧ readLength tooGreat = .error (.badLength tooGreat) ∧
    Utf8.decode [49, 0xFF] = .error (.broken 1 1) ∧ Decimal.Unreadable [49, 0xFF] ∧
    Ascii.dollar ≠ Ascii.lineFeed ∧
    readLine (header Ascii.dollar (-2 ^ 63) ++ [7]) =
      .ok (Ascii.dollar :: Utf8.encode "-9223372036854775808", [7]) := by
  intro least tooGreat
  obtain ⟨exact, -, refused, odd, words, written⟩ := length_fields_exact
  have spelled : Decimal.unbounded? least = some (-2 ^ 63) := by decide +kernel
  have read : readLength least = .ok (-2 ^ 63) :=
    (exact least (-2 ^ 63)).mpr
      ⟨Decimal.unbounded?_eq_some_iff.mp spelled, by decide, by decide⟩
  have wide : Decimal.Unreadable tooGreat :=
    .wide (Decimal.unbounded?_eq_some_iff.mp (show Decimal.unbounded? tooGreat = some (2 ^ 63) by
      decide +kernel)) (by decide)
  have broken : Utf8.decode [49, 0xFF] = .error (.broken 1 1) := by decide +kernel
  refine ⟨read, (words _ _).mpr read, wide, (refused _ wide).1, broken,
    odd _ (.inr ⟨_, broken⟩), by decide, ?_⟩
  exact (written Ascii.dollar Int64.minValue [7] (by decide)).1

end Resp

end LogKv
