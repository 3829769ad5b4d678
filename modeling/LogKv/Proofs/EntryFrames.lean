import LogKv.Proofs.LayoutReadings

/-! Which byte strings are frames of entries. A frame is the version, the checksum
of its payload with the highest byte first, and the payload: a record, and then
any bytes at all. Reading accepts exactly the frames around a put with a value
and around a delete without one, whatever the checksum is. -/
namespace LogKv

/-! ## Records -/

namespace Record

/-- The key and the value of a record are byte strings that a memory can hold. -/
def Addressable (r : Record) : Prop := r.key.Addressable ∧ ∀ value ∈ r.value, value.Addressable

/-- The record is a put with a value or a delete without one. -/
def IsEntry (r : Record) : Prop :=
  r.operation = .put ∧ r.value.isSome ∨ r.operation = .delete ∧ r.value = none

instance (r : Record) : Decidable r.Addressable :=
  inferInstanceAs (Decidable (r.key.Addressable ∧ ∀ value ∈ r.value, value.Addressable))

instance (r : Record) : Decidable r.IsEntry :=
  inferInstanceAs
    (Decidable (r.operation = .put ∧ r.value.isSome ∨ r.operation = .delete ∧ r.value = none))

theorem operationNumber_lt (operation : Operation) : operationNumber operation < 2 := by
  cases operation <;> decide

/-- The number of an operation is read as that operation, and no other number is read. -/
theorem operationNumber_eq_iff {number : Nat} (inside : number < 2) {operation : Operation} :
    (if number = 0 then .put else .delete) = operation ↔ number = operationNumber operation := by
  cases operation with
  | put => simp [operationNumber]
  | delete =>
    simp only [operationNumber, ite_eq_right_iff, reduceCtorEq, imp_false]
    omega

theorem read_reads : Layout.Reads read payload Addressable := by
  have numbers := Layout.readVariant_reads (show 2 ≤ 2 ^ 32 by decide)
  intro s r rest
  constructor
  · intro taken
    rw [read] at taken
    split at taken
    · cases taken
    · next number behind first =>
      obtain ⟨inside, rfl⟩ := (numbers s number behind).mp first
      split at taken
      · cases taken
      · next key behind second =>
        obtain ⟨keyFits, rfl⟩ := (Layout.readSized_reads _ key behind).mp second
        split at taken
        · cases taken
        · next value behind third =>
          obtain ⟨valueFits, rfl⟩ := (Layout.readOptional_reads _ value behind).mp third
          obtain ⟨rfl, rfl⟩ := Prod.mk.inj (Except.ok.inj taken)
          have operation := (operationNumber_eq_iff inside).mp rfl
          refine ⟨⟨keyFits, valueFits⟩, ?_⟩
          rw [payload, ← operation, List.append_assoc, List.append_assoc]
  · rintro ⟨⟨keyFits, valueFits⟩, rfl⟩
    have operation := (operationNumber_eq_iff (operationNumber_lt r.operation)).mpr rfl
    rw [payload, List.append_assoc, List.append_assoc, read,
      numbers.ok (operationNumber_lt r.operation)]
    simp only [Layout.readSized_reads.ok keyFits, Layout.readOptional_reads.ok valueFits, operation]

end Record

namespace Entry

theorem record_addressable {entry : Entry} : entry.record.Addressable ↔ entry.Addressable := by
  cases entry <;> simp [record, Record.Addressable, Addressable]

theorem isEntry_iff {r : Record} : r.IsEntry ↔ ∃ entry : Entry, entry.record = r := by
  constructor
  · obtain ⟨operation, key, value⟩ := r
    rintro (⟨rfl, present⟩ | ⟨rfl, rfl⟩)
    · obtain ⟨value, rfl⟩ := Option.isSome_iff_exists.mp present
      exact ⟨.put key value, rfl⟩
    · exact ⟨.delete key, rfl⟩
  · rintro ⟨entry, rfl⟩
    cases entry with
    | put key value => exact .inl ⟨rfl, rfl⟩
    | delete key => exact .inr ⟨rfl, rfl⟩

/-- The fault of a record that is no entry. -/
def misfit (r : Record) : Fault :=
  match r.operation with
  | .put => .putWithoutValue
  | .delete => .deleteWithValue

theorem ofRecord_of_not_isEntry {r : Record} (misfits : ¬r.IsEntry) :
    ofRecord r = .error (misfit r) := by
  obtain ⟨operation, key, value⟩ := r
  cases operation <;> cases value <;> simp [Record.IsEntry, ofRecord, misfit] at misfits ⊢

/-! ## Frames -/

section Frames
variable {checksum : Bytes → UInt32} {frame payload : Bytes}

/-- The version, the four bytes of the payload's checksum with the highest first, and the
payload. -/
def Frames (checksum : Bytes → UInt32) (frame payload : Bytes) : Prop :=
  ∃ a b c d : UInt8, frame = 1 :: a :: b :: c :: d :: payload ∧
    (checksum payload).toNat =
      a.toNat * 2 ^ 24 + b.toNat * 2 ^ 16 + c.toNat * 2 ^ 8 + d.toNat

theorem stated_eq_iff {a b c d : UInt8} {sum : UInt32} :
    UInt32.ofNat (Layout.wordValue [d, c, b, a]) = sum ↔
      sum.toNat = a.toNat * 2 ^ 24 + b.toNat * 2 ^ 16 + c.toNat * 2 ^ 8 + d.toNat := by
  have boundA := a.toNat_lt
  have boundB := b.toNat_lt
  have boundC := c.toNat_lt
  have boundD := d.toNat_lt
  have value : Layout.wordValue [d, c, b, a] =
      d.toNat + 256 * (c.toNat + 256 * (b.toNat + 256 * (a.toNat + 256 * 0))) := rfl
  rw [← UInt32.toNat_inj, UInt32.toNat_ofNat', value]
  omega

theorem unwrap_eq_ok_iff : unwrap checksum frame = .ok payload ↔ Frames checksum frame payload := by
  constructor
  · intro taken
    unfold unwrap at taken
    split at taken
    · next v a b c d behind =>
      split at taken
      · cases taken
      · next current =>
        simp only at taken
        split at taken
        · cases taken
        · next agree =>
          obtain rfl := Except.ok.inj taken
          obtain rfl := Decidable.not_not.mp current
          exact ⟨a, b, c, d, rfl, stated_eq_iff.mp (Decidable.not_not.mp agree)⟩
    · cases taken
  · rintro ⟨a, b, c, d, rfl, sum⟩
    have stated := stated_eq_iff.mpr sum
    simp only [unwrap, version, ne_eq, not_true_eq_false, if_false, stated]

theorem frames_wrap (checksum : Bytes → UInt32) (payload : Bytes) :
    Frames checksum (wrap checksum payload) payload :=
  unwrap_eq_ok_iff.mp (unwrap_wrap checksum payload)

end Frames

/-- A frame is read as an entry exactly when it is a frame around that entry's record and
what follows it. -/
theorem decodeWith_eq_ok_iff {checksum : Bytes → UInt32} {frame : Bytes} {entry : Entry} :
    decodeWith checksum frame = .ok entry ↔
      entry.Addressable ∧ ∃ trailing, Frames checksum frame (entry.record.payload ++ trailing) := by
  constructor
  · intro taken
    rw [decodeWith_eq] at taken
    split at taken
    · cases taken
    · next payload unwrapped =>
      split at taken
      · cases taken
      · next r trailing found =>
        obtain rfl := ofRecord_eq_ok_iff.mp taken
        obtain ⟨fits, rfl⟩ := (Record.read_reads payload _ trailing).mp found
        exact ⟨record_addressable.mp fits, trailing, unwrap_eq_ok_iff.mp unwrapped⟩
  · rintro ⟨fits, trailing, frames⟩
    have found := Record.read_reads.ok (record_addressable.mpr fits) trailing
    rw [decodeWith_eq, unwrap_eq_ok_iff.mpr frames]
    simp only [found, ofRecord_record]

/-- A frame around a record that is no entry is refused for that, whatever follows the record. -/
theorem decodeWith_of_not_isEntry {checksum : Bytes → UInt32} {frame trailing : Bytes} {r : Record}
    (fits : r.Addressable) (misfits : ¬r.IsEntry)
    (frames : Frames checksum frame (r.payload ++ trailing)) :
    decodeWith checksum frame = .error (misfit r) := by
  have found := Record.read_reads.ok fits trailing
  rw [decodeWith_eq, unwrap_eq_ok_iff.mpr frames]
  simp only [found, ofRecord_of_not_isEntry misfits]

theorem wrap_injective (checksum : Bytes → UInt32) {payload other : Bytes}
    (same : wrap checksum payload = wrap checksum other) : payload = other := by
  have unwrapped := unwrap_wrap checksum payload
  rw [same, unwrap_wrap] at unwrapped
  exact (Except.ok.inj unwrapped).symm

theorem payload_injective {r other : Record} (fits : r.Addressable) (otherFits : other.Addressable)
    (same : r.payload = other.payload) : r = other := by
  have extended : r.payload ++ [] = other.payload ++ [] := congrArg (· ++ []) same
  exact (Record.read_reads.cancel fits otherFits extended).1

/-- Reading accepts the frames of entries and nothing else.

Whatever the checksum is, a byte string is read as a record exactly when the record is
a put with a value or a delete without one, and the byte string is the version, the
checksum of a payload and that payload, which starts with the record. So every entry is
read back from the frame that it is written to; the frame of a record that is no entry
is refused; different records are written to different frames; and every other byte
string is refused as one that does not hold what it should. -/
theorem decode_accepts_exactly_frames (checksum : Bytes → UInt32) :
    (∀ (frame : Bytes) (r : Record),
      (∃ entry, decodeWith checksum frame = .ok entry ∧ entry.record = r) ↔
        r.Addressable ∧ r.IsEntry ∧ ∃ trailing, Frames checksum frame (r.payload ++ trailing)) ∧
    (∀ r : Record, Frames checksum (wrap checksum r.payload) r.payload) ∧
    (∀ entry : Entry, entry.Addressable →
      decodeWith checksum (encodeWith checksum entry) = .ok entry) ∧
    (∀ r : Record, r.Addressable → ¬r.IsEntry →
      decodeWith checksum (wrap checksum r.payload) = .error (misfit r)) ∧
    (∀ r other : Record, r.Addressable → other.Addressable →
      wrap checksum r.payload = wrap checksum other.payload → r = other) ∧
    ∀ frame : Bytes,
      (¬∃ r : Record, r.Addressable ∧ r.IsEntry ∧
        ∃ trailing, Frames checksum frame (r.payload ++ trailing)) →
      ∃ fault text, decodeWith checksum frame = .error fault ∧
        fault.toFault = .serialization text := by
  have accepted (frame : Bytes) (r : Record) :
      (∃ entry, decodeWith checksum frame = .ok entry ∧ entry.record = r) ↔
        r.Addressable ∧ r.IsEntry ∧
          ∃ trailing, Frames checksum frame (r.payload ++ trailing) := by
    constructor
    · rintro ⟨entry, taken, rfl⟩
      obtain ⟨fits, frames⟩ := decodeWith_eq_ok_iff.mp taken
      exact ⟨record_addressable.mpr fits, isEntry_iff.mpr ⟨entry, rfl⟩, frames⟩
    · rintro ⟨fits, isEntry, frames⟩
      obtain ⟨entry, rfl⟩ := isEntry_iff.mp isEntry
      exact ⟨entry, decodeWith_eq_ok_iff.mpr ⟨record_addressable.mp fits, frames⟩, rfl⟩
  have alone (r : Record) : Frames checksum (wrap checksum r.payload) (r.payload ++ []) := by
    rw [List.append_nil]
    exact frames_wrap checksum r.payload
  refine ⟨accepted, fun r => frames_wrap checksum r.payload, ?_, ?_, ?_, ?_⟩
  · intro entry fits
    exact decodeWith_eq_ok_iff.mpr ⟨fits, [], alone entry.record⟩
  · intro r fits misfits
    exact decodeWith_of_not_isEntry fits misfits (alone r)
  · intro r other fits otherFits same
    exact payload_injective fits otherFits (wrap_injective checksum same)
  · intro frame foreign
    cases read : decodeWith checksum frame with
    | error fault => exact ⟨fault, fault.message, rfl, rfl⟩
    | ok entry =>
      exact absurd ⟨entry.record, (accepted frame entry.record).mp ⟨entry, read, rfl⟩⟩ foreign

/-- A put with bytes after its record, a put that lays out no value, the frames of a put and
of a delete, and a byte string that is too short for a header. -/
theorem decode_accepts_exactly_frames_samples :
    let write : Entry := .put [107] [0, 255]
    let bare : Record := ⟨.put, [107], none⟩
    let longer := wrap Crc32.checksum (write.record.payload ++ [7, 7])
    write.Addressable ∧ bare.Addressable ∧ ¬bare.IsEntry ∧
    (∃ entry, decodeWith Crc32.checksum longer = .ok entry ∧ entry.record = write.record) ∧
    decodeWith Crc32.checksum (encodeWith Crc32.checksum write) = .ok write ∧
    decodeWith Crc32.checksum (wrap Crc32.checksum bare.payload) = .error .putWithoutValue ∧
    wrap Crc32.checksum write.record.payload ≠ wrap Crc32.checksum bare.payload ∧
    ∃ fault text, decodeWith Crc32.checksum [1, 2, 3] = .error fault ∧
      fault.toFault = .serialization text := by
  intro write bare longer
  obtain ⟨accepts, -, back, refuses, differ, foreign⟩ :=
    decode_accepts_exactly_frames Crc32.checksum
  have fits : write.Addressable := ⟨by decide, by decide⟩
  have fitsToo : write.record.Addressable := record_addressable.mpr fits
  have bareFits : bare.Addressable := by decide
  have misfits : ¬bare.IsEntry := by decide
  refine ⟨fits, bareFits, misfits, ?_, back write fits, refuses bare bareFits misfits, ?_, ?_⟩
  · exact (accepts longer write.record).mpr
      ⟨fitsToo, isEntry_iff.mpr ⟨write, rfl⟩, [7, 7], frames_wrap Crc32.checksum _⟩
  · intro same
    exact absurd (differ write.record bare fitsToo bareFits same) (by decide)
  · apply foreign
    rintro ⟨r, -, -, trailing, a, b, c, d, short, -⟩
    cases short

end Entry

end LogKv
