import LogKv.Proofs.ChecksumBursts
import LogKv.Proofs.CutFrames

/-! Frames with some bytes changed. A frame has one header for its payload, so a change
in the header alone shows whatever the checksum is. A change in the payload shows in the
checksum if it stays within four bytes in a row, however long the payload is and wherever
those bytes are. A bit that flips is always such a change. -/
namespace LogKv

namespace Bytes

/-- The bytes are as many as were written, and differ from those at most in `count` places
in a row, from the place `start` on. -/
def AlteredWithin (start count : Nat) (altered written : Bytes) : Prop :=
  altered.length = written.length ∧ ∀ place < written.length,
    altered[place]? ≠ written[place]? → start ≤ place ∧ place < start + count

instance (start count : Nat) (altered written : Bytes) :
    Decidable (AlteredWithin start count altered written) :=
  inferInstanceAs (Decidable (altered.length = written.length ∧ ∀ place < written.length,
    altered[place]? ≠ written[place]? → start ≤ place ∧ place < start + count))

/-- The bytes with one bit of the byte at `place` the other way round. -/
def flipBit (place bit : Nat) (s : Bytes) : Bytes := s.modify place (· ^^^ (1 <<< UInt8.ofNat bit))

variable {start count n place bit : Nat} {altered written s : Bytes}

theorem AlteredWithin.inside (close : AlteredWithin start count altered written)
    (differ : altered[place]? ≠ written[place]?) : start ≤ place ∧ place < start + count := by
  by_cases short : place < written.length
  · exact close.2 place short differ
  · have beyond := close.1
    rw [List.getElem?_eq_none (by omega), List.getElem?_eq_none (by omega)] at differ
    exact absurd rfl differ

theorem AlteredWithin.widen {wide more : Nat} (close : AlteredWithin start count altered written)
    (before : wide ≤ start) (after : start + count ≤ wide + more) :
    AlteredWithin wide more altered written := by
  refine ⟨close.1, fun place _ differ => ?_⟩
  have := close.inside differ
  omega

theorem AlteredWithin.take_eq (close : AlteredWithin start count altered written)
    (before : n ≤ start) : altered.take n = written.take n := by
  apply List.ext_getElem?
  intro place
  rw [List.getElem?_take, List.getElem?_take]
  split
  · exact Decidable.not_not.mp fun differ => absurd (close.inside differ).1 (by omega)
  · rfl

theorem AlteredWithin.drop_eq (close : AlteredWithin start count altered written)
    (after : start + count ≤ n) : altered.drop n = written.drop n := by
  apply List.ext_getElem?
  intro place
  rw [List.getElem?_drop, List.getElem?_drop]
  exact Decidable.not_not.mp fun differ => absurd (close.inside differ).2 (by omega)

theorem AlteredWithin.drop (close : AlteredWithin start count altered written)
    (before : n ≤ start) :
    AlteredWithin (start - n) count (altered.drop n) (written.drop n) := by
  refine ⟨by rw [List.length_drop, List.length_drop, close.1], fun place _ differ => ?_⟩
  rw [List.getElem?_drop, List.getElem?_drop] at differ
  have := close.inside differ
  omega

theorem flipBit_altered (place bit : Nat) (s : Bytes) :
    AlteredWithin place 1 (flipBit place bit s) s := by
  refine ⟨List.length_modify _ _ _, fun other _ differ => ?_⟩
  by_cases here : place = other
  · omega
  · rw [flipBit, List.getElem?_modify_ne _ _ here] at differ
    exact absurd rfl differ

theorem flipBit_ne (inside : place < s.length) (isBit : bit < 8) : flipBit place bit s ≠ s := by
  intro same
  have some : ∀ bit < 8, (1 : UInt8) <<< UInt8.ofNat bit ≠ 0 := by decide
  have byte : s[place] ^^^ (1 <<< UInt8.ofNat bit) = s[place] ^^^ 0 := by
    have there := congrArg (·[place]?) same
    simpa [flipBit, inside] using there
  exact some bit isBit ((UInt8.xor_right_inj _).mp byte)

end Bytes

open Bytes (AlteredWithin flipBit)

/-- Up to four bytes in a row cannot change without the checksum. -/
theorem Crc32.checksum_ne_of_altered {start : Nat} {altered written : Bytes}
    (close : AlteredWithin start 4 altered written) (differ : altered ≠ written) :
    checksum altered ≠ checksum written := by
  have split (s : Bytes) :
      s = s.take start ++ ((s.drop start).take 4 ++ s.drop (start + 4)) := by
    rw [← List.drop_drop, List.take_append_drop, List.take_append_drop]
  have same : ((altered.drop start).take 4).length = ((written.drop start).take 4).length := by
    simp only [List.length_take, List.length_drop, close.1]
  rw [split altered, split written, close.take_eq (Nat.le_refl start),
    close.drop_eq (Nat.le_refl (start + 4))] at differ ⊢
  exact checksum_ne _ _ same (List.length_take_le _ _) fun inside => differ (by rw [inside])

namespace Entry

variable {checksum : Bytes → UInt32} {frame payload : Bytes} {stated actual : UInt32}

theorem header_inj : header stated = header actual ↔ stated = actual := by
  refine ⟨fun same => ?_, congrArg header⟩
  have words := congrArg Layout.wordValue (List.reverse_inj.mp (List.cons.inj same).2)
  have small (sum : UInt32) : sum.toNat < 256 ^ 4 := sum.toNat_lt
  rw [Layout.wordValue_word, Layout.wordValue_word, Nat.mod_eq_of_lt (small stated),
    Nat.mod_eq_of_lt (small actual)] at words
  exact UInt32.toNat_inj.mp words

/-- Bytes that are enough for a header start with another version or with a header. -/
theorem version_or_header (long : headerSize ≤ frame.length) :
    (∃ found, found ≠ version ∧ unwrap checksum frame = .error (.badVersion found)) ∨
      ∃ stated payload, frame = header stated ++ payload := by
  match frame, long with
  | v :: a :: b :: c :: d :: payload, _ =>
    by_cases current : v = version
    · right
      have word : Layout.word 4 (Layout.wordValue [d, c, b, a]) = [d, c, b, a] :=
        Layout.word_wordValue [d, c, b, a]
      have small : Layout.wordValue [d, c, b, a] < 256 ^ 4 := Layout.wordValue_lt [d, c, b, a]
      have value : (UInt32.ofNat (Layout.wordValue [d, c, b, a])).toNat =
          Layout.wordValue [d, c, b, a] := by
        rw [UInt32.toNat_ofNat', Nat.mod_eq_of_lt (by omega)]
      refine ⟨UInt32.ofNat (Layout.wordValue [d, c, b, a]), payload, ?_⟩
      rw [header, value, current, word]
      rfl
    · exact .inl ⟨v, current, if_pos current⟩

/-- The frame is refused for its version or for its checksum. -/
def Detected (frame : Bytes) : Prop :=
  ∃ fault text, decode frame = .error fault ∧ fault.toFault = .serialization text ∧
    ((∃ found, found ≠ version ∧ fault = .badVersion found) ∨
      ∃ stated actual, stated ≠ actual ∧ fault = .badChecksum stated actual)

theorem detected_of_foreign (long : headerSize ≤ frame.length)
    (foreign : ∀ payload, frame ≠ wrap Crc32.checksum payload) : Detected frame := by
  rcases version_or_header long with ⟨found, other, refused⟩ | ⟨stated, payload, rfl⟩
  · refine ⟨.badVersion found, _, ?_, rfl, .inl ⟨found, other, rfl⟩⟩
    rw [decode, decodeWith_eq, refused]
  · have spoiled : stated ≠ Crc32.checksum payload := by
      rintro rfl
      exact foreign payload rfl
    exact ⟨_, _, decodeWith_of_spoiled spoiled, rfl, .inr ⟨_, _, spoiled, rfl⟩⟩

theorem wrap_length : (wrap checksum payload).length = headerSize + payload.length := by
  have parts : wrap checksum payload = header (checksum payload) ++ payload := rfl
  rw [parts, List.length_append, header_length]

theorem wrap_take : (wrap checksum payload).take headerSize = header (checksum payload) :=
  List.take_left' header_length

theorem wrap_drop : (wrap checksum payload).drop headerSize = payload :=
  List.drop_left' header_length

/-- Only the header of the frame was altered, or only up to four bytes in a row of its payload. -/
def SlightlyAltered (altered frame : Bytes) : Prop :=
  AlteredWithin 0 headerSize altered frame ∨
    ∃ start, headerSize ≤ start ∧ AlteredWithin start 4 altered frame

/-- A frame that was slightly altered is no longer one, of whatever payload. -/
theorem SlightlyAltered.foreign {altered : Bytes}
    (slightly : SlightlyAltered altered (wrap Crc32.checksum payload))
    (differ : altered ≠ wrap Crc32.checksum payload) (found : Bytes) :
    altered ≠ wrap Crc32.checksum found := by
  rintro rfl
  rcases slightly with inHeader | ⟨start, behind, inPayload⟩
  · have same := inHeader.drop_eq (Nat.le_of_eq (Nat.zero_add _))
    rw [wrap_drop, wrap_drop] at same
    exact differ (by rw [same])
  · have sums := inPayload.take_eq behind
    have near := inPayload.drop behind
    rw [wrap_take, wrap_take, header_inj] at sums
    rw [wrap_drop, wrap_drop] at near
    exact Crc32.checksum_ne_of_altered near (fun same => differ (by rw [same])) sums

/-- Every small alteration of a frame is detected.

A frame that is altered in its header only, or only in up to four bytes in a row of its
payload, is refused for its version or its checksum. So it is whatever bit of it is
flipped, and however long the frame is. -/
theorem alterations_detected (r : Record) :
    (∀ altered, altered ≠ frameOf r → SlightlyAltered altered (frameOf r) → Detected altered) ∧
    ∀ place bit, place < (frameOf r).length → bit < 8 →
      Detected (flipBit place bit (frameOf r)) := by
  have long : headerSize ≤ (frameOf r).length := by
    rw [frameOf, wrap_length]
    exact Nat.le_add_right _ _
  have detects (altered : Bytes) (differ : altered ≠ frameOf r)
      (slightly : SlightlyAltered altered (frameOf r)) : Detected altered := by
    have same : altered.length = (frameOf r).length := by
      rcases slightly with near | ⟨start, -, near⟩ <;> exact near.1
    exact detected_of_foreign (same ▸ long) (slightly.foreign differ)
  refine ⟨detects, fun place bit inside isBit => ?_⟩
  have near := Bytes.flipBit_altered place bit (frameOf r)
  apply detects _ (Bytes.flipBit_ne inside isBit)
  by_cases early : place < headerSize
  · exact .inl (near.widen (Nat.zero_le _) (by omega))
  · exact .inr ⟨place, by omega, near.widen (Nat.le_refl _) (by omega)⟩

/-- The last four bytes of a value, all changed, and the lowest bit of its last byte, flipped. -/
theorem alterations_detected_value :
    let r : Record := (put [107] [1, 2, 3, 4, 5]).record
    let altered := (frameOf r).take 28 ++ [5, 4, 3, 2]
    altered ≠ frameOf r ∧ SlightlyAltered altered (frameOf r) ∧ Detected altered ∧
    31 < (frameOf r).length ∧ Detected (flipBit 31 0 (frameOf r)) := by
  intro r altered
  obtain ⟨detects, flips⟩ := alterations_detected r
  have differ : altered ≠ frameOf r := by decide +kernel
  have inside : 31 < (frameOf r).length := by decide +kernel
  have slightly : SlightlyAltered altered (frameOf r) :=
    .inr ⟨28, by decide, by decide +kernel⟩
  exact ⟨differ, slightly, detects altered differ slightly, inside, flips 31 0 inside (by decide)⟩

end Entry

end LogKv
