import LogKv.Proofs.EntryFrames
import LogKv.Proofs.ShownText
import LogKv.Proofs.WriteEffects

/-! What a state machine reports can be read by whoever submitted the entry. A report
is read back from its bytes if a memory can hold what it carries. The reason for
refusing a frame is always short, whatever is wrong with the frame, so no frame
makes a report that cannot be read. -/
namespace LogKv

/-! ## Reading a report -/

/-- The value of an outcome, or its reason, is one that a memory can hold. -/
def Outcome.Addressable : Outcome → Prop
  | applied value => ∀ bytes ∈ value, bytes.Addressable
  | notFound => True
  | rejected reason => (Utf8.encode reason).Addressable

theorem Layout.readText_text {t : String} (fits : (Utf8.encode t).Addressable) (rest : Bytes) :
    readText (text t ++ rest) = .ok (t, rest) := by
  have cut : Bytes.cut? (Utf8.encode t).length (Utf8.encode t ++ rest) =
      some (Utf8.encode t, rest) := Bytes.cut?_eq_some_iff.mpr ⟨rfl, rfl⟩
  have short : (Utf8.encode t).length < 256 ^ 8 := by simpa [Bytes.Addressable] using fits
  rw [readText, text, sized, List.append_assoc, readWord_word short]
  simp only [cut, Utf8.decode_encode]

namespace Outcome

theorem read_encode {o : Outcome} (fits : o.Addressable) (rest : Bytes) :
    read (o.encode ++ rest) = .ok (o, rest) := by
  have variants := Layout.readVariant_reads (show 2 ≤ 2 ^ 32 by decide)
  have first := variants.ok (show 0 < 2 by decide)
  have second := variants.ok (show 1 < 2 by decide)
  cases o with
  | applied value =>
    rw [encode, List.append_assoc, read, first]
    simp only [Layout.readOptional_optional fits]
  | notFound =>
    rw [encode, List.append_assoc, read, second]
    simp only [readFailure, first]
  | rejected reason =>
    rw [encode, List.append_assoc, List.append_assoc, read, second]
    simp only [readFailure, second, Layout.readText_text fits]

theorem decode_encode {o : Outcome} (fits : o.Addressable) : decode o.encode = .ok o := by
  have back := read_encode fits []
  rw [List.append_nil] at back
  rw [decode, back]
  rfl

theorem resultOf_encode {o : Outcome} (fits : o.Addressable) : resultOf o.encode = o.result := by
  rw [resultOf, decode_encode fits]

end Outcome

/-! ## How long a reason is -/

theorem Decimal.toString_short {n : Nat} (small : n < 2 ^ 63) : (toString n).utf8ByteSize ≤ 20 := by
  have size : (toString n).utf8ByteSize = (write n).length := repr_size n
  rw [size]
  exact write_length (by omega) (by omega)

namespace Layout

/-- The fault shows no text, and no number but one that was read from a word or a byte. -/
def Fault.Short : Fault → Prop
  | .endOfData => True
  | .badVariant found bound => found < 2 ^ 32 ∧ bound = 2
  | .badOption found => found < 256
  | .endOfText | .badText _ => False

theorem Fault.Short.message_size {fault : Fault} (short : fault.Short) :
    fault.message.utf8ByteSize ≤ 100 := by
  cases fault with
  | endOfData => decide
  | badVariant found bound =>
    obtain ⟨small, rfl⟩ := short
    have words : (badVariant found 2).message = "invalid value: integer `" ++ toString found ++
        ("`, expected variant index 0 <= i < " ++ toString 2) := String.append_assoc
    have size : (badVariant found 2).message.utf8ByteSize = 60 + (toString found).utf8ByteSize := by
      rw [words]
      exact Text.size_between (by decide) _
    have shown := Decimal.toString_short (Nat.lt_trans small (by decide))
    omega
  | badOption found =>
    have size : (badOption found).message.utf8ByteSize = 33 + (toString found).utf8ByteSize :=
      Text.size_behind (by decide) _
    have shown := Decimal.toString_short (Nat.lt_trans short (by decide))
    omega
  | endOfText => exact short.elim
  | badText fault => exact short.elim

theorem readWord_fault {width : Nat} {s : Bytes} {fault : Fault}
    (refused : readWord width s = .error fault) : fault = .endOfData := by
  rw [readWord] at refused
  split at refused <;> cases refused
  rfl

theorem readVariant_fault {s : Bytes} {fault : Fault} (refused : readVariant 2 s = .error fault) :
    fault.Short := by
  rw [readVariant] at refused
  split at refused
  · next word =>
    cases refused
    rw [readWord_fault word]
    trivial
  · next word =>
    split at refused <;> cases refused
    exact ⟨((readWord_reads 4 s _ _).mp word).1, rfl⟩

theorem readSized_fault {s : Bytes} {fault : Fault} (refused : readSized s = .error fault) :
    fault = .endOfData := by
  rw [readSized] at refused
  split at refused
  · next word =>
    cases refused
    exact readWord_fault word
  · split at refused <;> cases refused
    rfl

theorem readOptional_fault {s : Bytes} {fault : Fault} (refused : readOptional s = .error fault) :
    fault.Short := by
  cases s with
  | nil =>
    cases refused
    trivial
  | cons tag s =>
    rw [readOptional] at refused
    split at refused
    · cases refused
    · split at refused
      · split at refused
        · next sized =>
          cases refused
          rw [readSized_fault sized]
          trivial
        · cases refused
      · cases refused
        exact tag.toNat_lt

end Layout

theorem Record.read_fault {s : Bytes} {fault : Layout.Fault} (refused : read s = .error fault) :
    fault.Short := by
  rw [read] at refused
  split at refused
  · next operation =>
    cases refused
    exact Layout.readVariant_fault operation
  · split at refused
    · next key =>
      cases refused
      rw [Layout.readSized_fault key]
      trivial
    · split at refused
      · next value =>
        cases refused
        exact Layout.readOptional_fault value
      · cases refused

namespace Entry

theorem hexWord_size (w : UInt32) : (hexWord w).utf8ByteSize ≤ 32 := by
  rw [hexWord, String.utf8ByteSize_ofList]
  exact Text.utf8Len_le _

/-- The fault shows no length that a header can have, and a payload's fault is short. -/
def Fault.Short : Fault → Prop
  | .shortHeader length => length < headerSize
  | .badPayload fault => fault.Short
  | _ => True

theorem Fault.badChecksum_size (stated actual : UInt32) :
    (badChecksum stated actual).message.utf8ByteSize =
      40 + (hexWord stated).utf8ByteSize + (hexWord actual).utf8ByteSize := by
  have words : (badChecksum stated actual).message =
      "Entry checksum mismatch: expected " ++ hexWord stated ++ (", got " ++ hexWord actual) :=
    String.append_assoc
  rw [words]
  simp only [String.utf8ByteSize_append]
  have front : "Entry checksum mismatch: expected ".utf8ByteSize = 34 := by decide
  have middle : ", got ".utf8ByteSize = 6 := by decide
  omega

theorem Fault.Short.message_size {fault : Fault} (short : fault.Short) :
    fault.message.utf8ByteSize ≤ 110 := by
  cases fault with
  | shortHeader length =>
    have size : (shortHeader length).message.utf8ByteSize = 47 + (toString length).utf8ByteSize :=
      Text.size_behind (by decide) _
    have shown := Decimal.toString_short (Nat.lt_trans short (by decide))
    omega
  | badVersion version =>
    have size : (badVersion version).message.utf8ByteSize =
        27 + (toString version.toNat).utf8ByteSize := Text.size_behind (by decide) _
    have shown := Decimal.toString_short (Nat.lt_trans version.toNat_lt (by decide))
    omega
  | badChecksum stated actual =>
    have size := badChecksum_size stated actual
    have first := hexWord_size stated
    have second := hexWord_size actual
    omega
  | badPayload fault => exact Nat.le_trans (Layout.Fault.Short.message_size short) (by decide)
  | putWithoutValue => decide
  | deleteWithValue => decide

variable {checksum : Bytes → UInt32} {frame : Bytes} {fault : Fault}

theorem unwrap_fault (refused : unwrap checksum frame = .error fault) : fault.Short := by
  unfold unwrap at refused
  split at refused
  · split at refused
    · cases refused
      trivial
    · simp only at refused
      split at refused <;> cases refused
      trivial
  · next short =>
    cases refused
    show frame.length < 5
    match frame, short with
    | [], _ | [_], _ | [_, _], _ | [_, _, _], _ | [_, _, _, _], _ => simp
    | v :: a :: b :: c :: d :: payload, short => exact absurd rfl (short v a b c d payload)

theorem decodeWith_fault (refused : decodeWith checksum frame = .error fault) : fault.Short := by
  rw [decodeWith_eq] at refused
  split at refused
  · next unwrapped =>
    cases refused
    exact unwrap_fault unwrapped
  · split at refused
    · next found =>
      cases refused
      exact Record.read_fault found
    · unfold ofRecord at refused
      split at refused <;> cases refused <;> trivial

/-- The reason for refusing a frame is one that a memory can hold. -/
theorem decode_fault_addressable (refused : decode frame = .error fault) :
    (Outcome.rejected fault.toFault.message).Addressable := by
  have short := (decodeWith_fault refused).message_size
  have size : fault.toFault.message.utf8ByteSize = 21 + fault.message.utf8ByteSize :=
    Text.size_behind (by decide) _
  rw [Outcome.Addressable, Bytes.Addressable, Utf8.encode_length, size]
  omega

end Entry

end LogKv
