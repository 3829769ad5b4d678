import LogKv.Log.Entry
import Mathlib.Algebra.Group.Nat.Defs

/-! What the log writes, it reads back. Every part of the layout is read off the
front of whatever follows it, so frames of entries come back
as they were, for any checksum. Lengths are counted in 64-bit words, which is
enough for every byte string in a memory. -/
namespace LogKv

/-- A 64-bit word can count these bytes, as it can those of any byte string in a memory. -/
def Bytes.Addressable (bytes : Bytes) : Prop := bytes.length < 2 ^ 64

instance (bytes : Bytes) : Decidable bytes.Addressable :=
  inferInstanceAs (Decidable (bytes.length < 2 ^ 64))

namespace Layout

theorem wordValue_word (width n : Nat) : wordValue (word width n) = n % 256 ^ width := by
  induction width generalizing n with
  | zero => simp [word, wordValue, Nat.mod_one]
  | succ width ih =>
    have low : (UInt8.ofNat n).toNat = n % 256 := UInt8.toNat_ofNat' ..
    have high : wordValue (word width (n / 256)) = n / 256 % 256 ^ width := ih (n / 256)
    rw [word, wordValue, List.foldr_cons, low, Nat.pow_succ', Nat.mod_mul]
    exact congrArg (fun value => n % 256 + 256 * value) high

theorem readWord_word {width n : Nat} (fits : n < 256 ^ width) (rest : Bytes) :
    readWord width (word width n ++ rest) = .ok (n, rest) := by
  have cut : Bytes.cut? width (word width n ++ rest) = some (word width n, rest) :=
    Bytes.cut?_eq_some_iff.mpr ⟨rfl, word_length width n⟩
  rw [readWord, cut]
  simp only [wordValue_word, Nat.mod_eq_of_lt fits]

theorem readVariant_variant {n bound : Nat} (inside : n < bound) (small : bound ≤ 2 ^ 32)
    (rest : Bytes) : readVariant bound (variant n ++ rest) = .ok (n, rest) := by
  rw [readVariant, variant, readWord_word (by omega)]
  exact if_pos inside

theorem readSized_sized {bytes : Bytes} (fits : bytes.Addressable) (rest : Bytes) :
    readSized (sized bytes ++ rest) = .ok (bytes, rest) := by
  have cut : Bytes.cut? bytes.length (bytes ++ rest) = some (bytes, rest) :=
    Bytes.cut?_eq_some_iff.mpr ⟨rfl, rfl⟩
  rw [readSized, sized, List.append_assoc, readWord_word (by simpa [Bytes.Addressable] using fits)]
  simp only [cut]

theorem readOptional_optional {value : Option Bytes} (fits : ∀ bytes ∈ value, bytes.Addressable)
    (rest : Bytes) : readOptional (optional value ++ rest) = .ok (value, rest) := by
  cases value with
  | none => rfl
  | some bytes =>
    have read := readSized_sized (fits bytes rfl) rest
    simp only [optional, List.cons_append, readOptional, read]
    rfl

end Layout

/-! ## Frames of entries -/

/-- The key and the value of an entry are byte strings that a memory can hold. -/
def Entry.Addressable : Entry → Prop
  | put key value => key.Addressable ∧ value.Addressable
  | delete key => key.Addressable

namespace Entry

theorem read_payload {entry : Entry} (fits : entry.Addressable) :
    Record.read entry.record.payload = .ok (entry.record, []) := by
  cases entry with
  | put key value =>
    have readValue : Layout.readOptional (Layout.optional (some value)) = .ok (some value, []) := by
      have inside : ∀ bytes ∈ some value, bytes.Addressable := by simpa using fits.2
      have read := Layout.readOptional_optional inside []
      rwa [List.append_nil] at read
    simp only [record, Record.payload, Record.operationNumber, Record.read,
      Layout.readVariant_variant (show 0 < 2 by decide) (by decide), Layout.readSized_sized fits.1,
      readValue, if_true]
  | delete key =>
    have readValue : Layout.readOptional (Layout.optional none) = .ok (none, []) := rfl
    simp only [record, Record.payload, Record.operationNumber, Record.read,
      Layout.readVariant_variant (show 1 < 2 by decide) (by decide), Layout.readSized_sized fits,
      readValue, Nat.one_ne_zero, if_false]

/-- What stands before the payload in a frame that states this checksum. -/
def header (stated : UInt32) : Bytes := version :: (Layout.word 4 stated.toNat).reverse

/-- A payload behind a header is taken if it has the checksum that the header states. -/
theorem unwrap_header (checksum : Bytes → UInt32) (stated : UInt32) (payload : Bytes) :
    unwrap checksum (header stated ++ payload) =
      if stated = checksum payload then .ok payload
      else .error (.badChecksum stated (checksum payload)) := by
  have small : stated.toNat < 256 ^ 4 := stated.toNat_lt
  have value : UInt32.ofNat (Layout.wordValue (Layout.word 4 stated.toNat)) = stated := by
    rw [Layout.wordValue_word, Nat.mod_eq_of_lt small, UInt32.ofNat_toNat]
  simp only [Layout.word] at value
  simp only [header, Layout.word, List.reverse_cons, List.reverse_nil, List.nil_append,
    List.cons_append, unwrap, ne_eq, not_true_eq_false, if_false, value, ite_not]

/-- The payload comes out of its frame, whatever the checksum is. -/
theorem unwrap_wrap (checksum : Bytes → UInt32) (payload : Bytes) :
    unwrap checksum (wrap checksum payload) = .ok payload :=
  (unwrap_header checksum (checksum payload) payload).trans (if_pos rfl)

theorem decode_encode {entry : Entry} (fits : entry.Addressable) :
    decode entry.encode = .ok entry := by
  rw [decode, decodeWith_eq, encode, encodeWith, unwrap_wrap]
  simp only [read_payload fits, ofRecord_record]

end Entry

end LogKv
