import LogKv.Proofs.EntryFrames

/-! Frames that lost their end, and frames with something behind them. Wherever a
spelling of the layout is cut, its reader runs out of bytes, so what is left of a frame
is no frame, even if its checksum should fit. Bytes behind a frame can spoil its
checksum, but they cannot make it the frame of another entry. -/
namespace LogKv

namespace Bytes

/-- The bytes are the front of longer ones. -/
def Cut (front whole : Bytes) : Prop := front <+: whole ∧ front ≠ whole

instance (front whole : Bytes) : Decidable (Cut front whole) :=
  inferInstanceAs (Decidable (front <+: whole ∧ front ≠ whole))

variable {front whole one two : Bytes}

theorem cut_iff : Cut front whole ↔ ∃ lost, lost ≠ [] ∧ front ++ lost = whole := by
  constructor
  · rintro ⟨⟨lost, rfl⟩, shorter⟩
    exact ⟨lost, fun none => shorter (by rw [none, List.append_nil]), rfl⟩
  · rintro ⟨lost, some, rfl⟩
    exact ⟨List.prefix_append front lost, fun same => some (List.self_eq_append_right.mp same)⟩

theorem Cut.length_lt (cut : Cut front whole) : front.length < whole.length := by
  obtain ⟨lost, some, rfl⟩ := cut_iff.mp cut
  rw [List.length_append]
  have := List.length_pos_iff.mpr some
  omega

theorem Cut.eq_nil {b : UInt8} (cut : Cut front [b]) : front = [] :=
  List.length_eq_zero_iff.mp (Nat.lt_one_iff.mp cut.length_lt)

/-- Two strings in a row are cut in the first one or in the second. -/
theorem Cut.of_append (cut : Cut front (one ++ two)) :
    Cut front one ∨ ∃ rest, front = one ++ rest ∧ Cut rest two := by
  obtain ⟨lost, some, whole⟩ := cut_iff.mp cut
  rcases List.append_eq_append_iff.mp whole with ⟨between, rfl, rfl⟩ | ⟨rest, rfl, rfl⟩
  · by_cases none : between = []
    · -- Between the two: nothing of the second one is left.
      subst none
      exact .inr ⟨[], by simp, cut_iff.mpr ⟨two, some, rfl⟩⟩
    · exact .inl (cut_iff.mpr ⟨between, none, rfl⟩)
  · exact .inr ⟨rest, rfl, cut_iff.mpr ⟨lost, some, rfl⟩⟩

end Bytes

open Bytes (Cut)

/-! ## Readers run out of bytes -/

namespace Layout

variable {front : Bytes}

theorem readWord_cut {width n : Nat} (cut : Cut front (word width n)) :
    readWord width front = .error .endOfData := by
  have short : front.length < width := by simpa [word_length] using cut.length_lt
  rw [readWord, Bytes.cut?_eq_none_iff.mpr short]

theorem readVariant_cut {bound n : Nat} (cut : Cut front (variant n)) :
    readVariant bound front = .error .endOfData := by
  rw [readVariant, readWord_cut cut]

theorem readSized_cut {bytes : Bytes} (fits : bytes.Addressable) (cut : Cut front (sized bytes)) :
    readSized front = .error .endOfData := by
  rcases cut.of_append with inLength | ⟨rest, rfl, inBytes⟩
  · rw [readSized, readWord_cut inLength]
  · rw [readSized, readWord_word (by simpa [Bytes.Addressable] using fits)]
    simp only [Bytes.cut?_eq_none_iff.mpr inBytes.length_lt]

theorem readOptional_cut {value : Option Bytes} (fits : ∀ bytes ∈ value, bytes.Addressable)
    (cut : Cut front (optional value)) : readOptional front = .error .endOfData := by
  cases value with
  | none =>
    obtain rfl := cut.eq_nil
    rfl
  | some bytes =>
    have tagged : Cut front ([1] ++ sized bytes) := cut
    rcases tagged.of_append with inTag | ⟨rest, rfl, inBytes⟩
    · obtain rfl := inTag.eq_nil
      rfl
    · have starved := readSized_cut (fits bytes rfl) inBytes
      simp only [List.cons_append, List.nil_append, readOptional, starved]
      rfl

end Layout

theorem Record.read_cut {r : Record} {front : Bytes} (fits : r.Addressable)
    (cut : Cut front r.payload) : read front = .error .endOfData := by
  have numbers := Layout.readVariant_reads (show 2 ≤ 2 ^ 32 by decide)
  have number := operationNumber_lt r.operation
  rcases cut.of_append with inNumber | ⟨rest, rfl, behindNumber⟩
  · rw [read, Layout.readVariant_cut inNumber]
  · rcases behindNumber.of_append with inKey | ⟨rest, rfl, inValue⟩
    · rw [read, numbers.ok number]
      simp only [Layout.readSized_cut fits.1 inKey]
    · rw [read, numbers.ok number]
      simp only [Layout.readSized_reads.ok fits.1, Layout.readOptional_cut fits.2 inValue]

/-! ## Frames -/

namespace Entry

variable {made checksum : Bytes → UInt32} {front rest : Bytes} {stated : UInt32} {entry : Entry}

theorem header_length : (header stated).length = headerSize := by
  simp [header, Layout.word_length, headerSize]

theorem encodeWith_append (trailing : Bytes) : encodeWith made entry ++ trailing =
    header (made entry.record.payload) ++ (entry.record.payload ++ trailing) :=
  List.append_assoc ..

theorem unwrap_of_short (short : front.length < headerSize) :
    unwrap checksum front = .error (.shortHeader front.length) := by
  unfold unwrap
  split
  · exact absurd short (by simp [headerSize])
  · rfl

theorem decodeWith_of_spoiled (spoiled : stated ≠ checksum rest) :
    decodeWith checksum (header stated ++ rest) =
      .error (.badChecksum stated (checksum rest)) := by
  rw [decodeWith_eq, unwrap_header, if_neg spoiled]

/-- What is left of a payload is no record, whether the checksum shows it or not. -/
theorem decodeWith_cut_payload (fits : entry.Addressable) (cut : Cut rest entry.record.payload) :
    decodeWith checksum (header stated ++ rest) =
      .error (if stated = checksum rest then .badPayload .endOfData
        else .badChecksum stated (checksum rest)) := by
  split
  · next collides =>
    rw [decodeWith_eq, unwrap_header, if_pos collides]
    simp only [Record.read_cut (record_addressable.mpr fits) cut]
  · next spoiled => exact decodeWith_of_spoiled spoiled

/-- Neither the front of a frame nor a frame with bytes behind it is read as another entry.

No front of what an entry is laid out as can be read. So the front of a frame that an entry
is written to is refused, for any two checksums that frames are made and checked with: for
want of a header, for its checksum, or, if that happens to fit, for want of a payload. With
any bytes behind it the frame is read as the same entry if their checksum fits, and is
refused for the checksum if it does not. -/
theorem cut_or_extended_never_another (made checksum : Bytes → UInt32) (entry : Entry)
    (fits : entry.Addressable) :
    let payload := entry.record.payload
    let frame := encodeWith made entry
    (∀ front, Cut front payload → Record.read front = .error .endOfData) ∧
    (∀ front, Cut front frame → ∃ fault text, decodeWith checksum front = .error fault ∧
      fault.toFault = .serialization text ∧
      (fault = .shortHeader front.length ∨
        (∃ actual, made payload ≠ actual ∧ fault = .badChecksum (made payload) actual) ∨
        fault = .badPayload .endOfData)) ∧
    ∀ trailing, let actual := checksum (payload ++ trailing)
      (made payload = actual → decodeWith checksum (frame ++ trailing) = .ok entry) ∧
      (made payload ≠ actual →
        decodeWith checksum (frame ++ trailing) = .error (.badChecksum (made payload) actual)) := by
  intro payload frame
  have fitsToo := record_addressable.mpr fits
  refine ⟨fun front => Record.read_cut fitsToo, fun front cut => ?_, fun trailing => ⟨?_, ?_⟩⟩
  · rcases Cut.of_append cut with inHeader | ⟨rest, rfl, inPayload⟩
    · have short : front.length < headerSize := header_length ▸ inHeader.length_lt
      refine ⟨.shortHeader front.length, _, ?_, rfl, .inl rfl⟩
      rw [decodeWith_eq, unwrap_of_short short]
    · refine ⟨_, _, decodeWith_cut_payload fits inPayload, rfl, .inr ?_⟩
      split
      · exact .inr rfl
      · next spoiled => exact .inl ⟨_, spoiled, rfl⟩
  · intro agrees
    rw [encodeWith_append, decodeWith_eq, unwrap_header, if_pos agrees]
    simp only [Record.read_reads.ok fitsToo, ofRecord_record]
  · intro spoiled
    rw [encodeWith_append, decodeWith_of_spoiled spoiled]

/-- A frame that lost the last byte of its value, and the whole frame with two bytes behind it.
Where every payload has the same checksum, the longer frame is read as the entry, and the
shorter one is no frame all the same; the checksum of the log refuses the longer one. -/
theorem cut_or_extended_never_another_collision :
    let entry : Entry := .put [107] [0, 255]
    let payload := entry.record.payload
    let blind : Bytes → UInt32 := fun _ => 0
    let frame := encodeWith blind entry
    entry.Addressable ∧ Cut payload.dropLast payload ∧ Cut frame.dropLast frame ∧
    Record.read payload.dropLast = .error .endOfData ∧
    (∃ fault text, decodeWith blind frame.dropLast = .error fault ∧
      fault.toFault = .serialization text) ∧
    decodeWith blind (frame ++ [7, 7]) = .ok entry ∧
    ∃ stated actual, decode (entry.encode ++ [7, 7]) = .error (.badChecksum stated actual) := by
  intro entry payload blind frame
  have fits : entry.Addressable := ⟨by decide, by decide⟩
  have cut : Cut payload.dropLast payload := by decide
  have cutFrame : Cut frame.dropLast frame := by decide
  obtain ⟨starves, refuses, runsOn⟩ := cut_or_extended_never_another blind blind entry fits
  obtain ⟨-, -, spoils⟩ :=
    cut_or_extended_never_another Crc32.checksum Crc32.checksum entry fits
  obtain ⟨fault, text, refused, reported, -⟩ := refuses frame.dropLast cutFrame
  have differs : Crc32.checksum payload ≠ Crc32.checksum (payload ++ [7, 7]) := by
    decide +kernel
  exact ⟨fits, cut, cutFrame, starves _ cut, ⟨fault, text, refused, reported⟩,
    (runsOn [7, 7]).1 rfl, _, _, (spoils [7, 7]).2 differs⟩

end Entry

end LogKv
