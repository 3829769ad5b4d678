import LogKv.Proofs.CutFrames
import LogKv.Proofs.ReadableReports

/-! Which byte strings are reports. A report starts with a number that says whether the
entry took effect, and what follows depends on it: an optional value, or another number
and perhaps a text. No report is spelled like another, and none is the front of another,
so a failure is never read as a success. Whatever is no report is refused. -/
namespace LogKv

open Bytes (Cut)

/-! ## Texts -/

namespace Layout

theorem readText_reads : Reads readText text fun t => (Utf8.encode t).Addressable := by
  intro s t rest
  constructor
  · intro taken
    rw [readText] at taken
    split at taken
    · cases taken
    · next length behind word =>
      obtain ⟨fits, rfl⟩ := (readWord_reads 8 s length behind).mp word
      split at taken
      · cases taken
      · next bytes rest cut =>
        obtain ⟨rfl, rfl⟩ := Bytes.cut?_eq_some_iff.mp cut
        split at taken
        · cases taken
        · next text decoded =>
          obtain rfl := Utf8.decode_eq_ok_iff.mp decoded
          obtain ⟨rfl, rfl⟩ := Prod.mk.inj (Except.ok.inj taken)
          refine ⟨?_, (List.append_assoc _ _ _).symm⟩
          simpa [Bytes.Addressable] using fits
  · rintro ⟨fits, rfl⟩
    exact readText_text fits rest

/-- A text that is cut in its length and one that is cut behind it are refused with different
faults. -/
theorem readText_cut {t : String} {front : Bytes} (fits : (Utf8.encode t).Addressable)
    (cut : Cut front (text t)) :
    readText front = .error .endOfData ∨ readText front = .error .endOfText := by
  rcases cut.of_append with inLength | ⟨rest, rfl, inText⟩
  · exact .inl (by rw [readText, readWord_cut inLength])
  · right
    rw [readText, readWord_word (by simpa [Bytes.Addressable] using fits)]
    simp only [Bytes.cut?_eq_none_iff.mpr inText.length_lt]

/-- A byte string where a text should be is refused if it is not the bytes of one. -/
theorem readText_of_no_text {bytes : Bytes} (fits : bytes.Addressable)
    (foreign : ∀ t, bytes ≠ Utf8.encode t) (rest : Bytes) :
    ∃ fault, readText (sized bytes ++ rest) = .error (.badText fault) := by
  have cut : Bytes.cut? bytes.length (bytes ++ rest) = some (bytes, rest) :=
    Bytes.cut?_eq_some_iff.mpr ⟨rfl, rfl⟩
  have short : bytes.length < 256 ^ 8 := by simpa [Bytes.Addressable] using fits
  cases decoded : Utf8.decode bytes with
  | ok t => exact absurd (Utf8.decode_eq_ok_iff.mp decoded) (foreign t)
  | error fault =>
    refine ⟨fault, ?_⟩
    rw [readText, sized, List.append_assoc, readWord_word short]
    simp only [cut, decoded]

theorem readVariant_of_out_of_range {bound tag : Nat} (beyond : bound ≤ tag) (word : tag < 2 ^ 32)
    (rest : Bytes) : readVariant bound (variant tag ++ rest) = .error (.badVariant tag bound) := by
  rw [readVariant, variant, readWord_word (by omega)]
  exact if_neg (by omega)

theorem readOptional_of_out_of_range {tag : UInt8} (absent : tag ≠ 0) (present : tag ≠ 1)
    (rest : Bytes) : readOptional (tag :: rest) = .error (.badOption tag.toNat) := by
  rw [readOptional, if_neg absent, if_neg present]

end Layout

/-! ## Reports -/

namespace Outcome

theorem readVariants : Layout.Reads (Layout.readVariant 2) Layout.variant (· < 2) :=
  Layout.readVariant_reads (by decide)

/-- Of two alternatives the one that is not the first is the second. -/
theorem second_spelled {s behind : Bytes} {number : Nat} (other : number ≠ 0)
    (taken : Layout.readVariant 2 s = .ok (number, behind)) : s = Layout.variant 1 ++ behind := by
  obtain ⟨inside, spelled⟩ := (readVariants s number behind).mp taken
  have one : number = 1 := Nat.le_antisymm (Nat.le_of_lt_succ inside) (Nat.pos_of_ne_zero other)
  rw [spelled, one]

/-- A report of failure is spelled behind the number that announces it. -/
theorem readFailure_spelled {s rest : Bytes} {o : Outcome}
    (taken : readFailure s = .ok (o, rest)) :
    o.Addressable ∧ Layout.variant 1 ++ s = o.encode ++ rest := by
  rw [readFailure] at taken
  split at taken
  · cases taken
  · next behind first =>
    obtain ⟨-, rfl⟩ := (readVariants s 0 behind).mp first
    obtain ⟨rfl, rfl⟩ := Prod.mk.inj (Except.ok.inj taken)
    exact ⟨trivial, (List.append_assoc _ _ _).symm⟩
  · next number behind other first =>
    obtain rfl := second_spelled other first
    split at taken
    · cases taken
    · next reason rest found =>
      obtain ⟨fits, rfl⟩ := (Layout.readText_reads _ reason rest).mp found
      obtain ⟨rfl, rfl⟩ := Prod.mk.inj (Except.ok.inj taken)
      refine ⟨fits, ?_⟩
      rw [encode, List.append_assoc, List.append_assoc]

theorem read_reads : Layout.Reads read encode Addressable := by
  intro s o rest
  constructor
  · intro taken
    rw [read] at taken
    split at taken
    · cases taken
    · next behind first =>
      obtain ⟨-, rfl⟩ := (readVariants s 0 behind).mp first
      split at taken
      · cases taken
      · next value rest found =>
        obtain ⟨fits, rfl⟩ := (Layout.readOptional_reads _ value rest).mp found
        obtain ⟨rfl, rfl⟩ := Prod.mk.inj (Except.ok.inj taken)
        exact ⟨fits, (List.append_assoc _ _ _).symm⟩
    · next number behind other first =>
      obtain rfl := second_spelled other first
      exact readFailure_spelled taken
  · rintro ⟨fits, rfl⟩
    exact read_encode fits rest

theorem decode_eq_ok_iff {s : Bytes} {o : Outcome} :
    decode s = .ok o ↔ o.Addressable ∧ ∃ trailing, s = o.encode ++ trailing := by
  rw [decode]
  constructor
  · intro taken
    cases found : read s with
    | error fault => simp [found, Except.map] at taken
    | ok pair =>
      obtain ⟨report, trailing⟩ := pair
      obtain rfl : report = o := by simpa [found, Except.map] using taken
      obtain ⟨fits, spelled⟩ := (read_reads s report trailing).mp found
      exact ⟨fits, trailing, spelled⟩
  · rintro ⟨fits, trailing, rfl⟩
    rw [read_encode fits]
    rfl

theorem read_cut {o : Outcome} {front : Bytes} (fits : o.Addressable)
    (cut : Cut front o.encode) :
    read front = .error .endOfData ∨ read front = .error .endOfText := by
  have zero := readVariants.ok (show 0 < 2 by decide)
  have one := readVariants.ok (show 1 < 2 by decide)
  cases o with
  | applied value =>
    rcases cut.of_append with inNumber | ⟨rest, rfl, inValue⟩
    · exact .inl (by rw [read, Layout.readVariant_cut inNumber])
    · exact .inl (by simp only [read, zero, Layout.readOptional_cut fits inValue])
  | notFound =>
    rcases cut.of_append with inNumber | ⟨rest, rfl, inKind⟩
    · exact .inl (by rw [read, Layout.readVariant_cut inNumber])
    · exact .inl (by simp only [read, one, readFailure, Layout.readVariant_cut inKind])
  | rejected reason =>
    rcases cut.of_append with inNumber | ⟨rest, rfl, behindNumber⟩
    · exact .inl (by rw [read, Layout.readVariant_cut inNumber])
    rcases behindNumber.of_append with inKind | ⟨rest, rfl, inReason⟩
    · exact .inl (by simp only [read, one, readFailure, Layout.readVariant_cut inKind])
    · simp only [read, one, readFailure]
      rcases Layout.readText_cut fits inReason with inLength | inText
      · exact .inl (by rw [inLength])
      · exact .inr (by rw [inText])

/-- The bytes are no report for this reason, and the submitter is told so. -/
def Refused (s : Bytes) (fault : Layout.Fault) : Prop :=
  decode s = .error fault ∧ resultOf s = .error (.serialization fault.message)

theorem refused_of_decode {s : Bytes} {fault : Layout.Fault} (refused : decode s = .error fault) :
    Refused s fault :=
  ⟨refused, by rw [resultOf, refused]⟩

theorem refused_of_read {s : Bytes} {fault : Layout.Fault} (refused : read s = .error fault) :
    Refused s fault :=
  refused_of_decode (by rw [decode, refused]; rfl)

theorem refused_of_foreign {s : Bytes}
    (foreign : ∀ (o : Outcome) trailing, o.Addressable → s ≠ o.encode ++ trailing) :
    ∃ fault, Refused s fault := by
  cases read : decode s with
  | error fault => exact ⟨fault, refused_of_decode read⟩
  | ok o =>
    obtain ⟨fits, trailing, spelled⟩ := decode_eq_ok_iff.mp read
    exact absurd spelled (foreign o trailing fits)

/-- Reading accepts the bytes of reports, whatever follows them, and nothing else.

A byte string is read as a report exactly when it starts with the bytes of that report.
So every report is read back from its bytes, and means for the submitter just what it
carries: its value, that the key is not bound, or its reason. Bytes that start with no
report are refused. Among them are all that is left of a report whose end is missing,
and whatever has a number or a tag that is out of range, or a reason that is no text. -/
theorem decode_accepts_exactly_reports :
    (∀ s o, decode s = .ok o ↔ o.Addressable ∧ ∃ trailing, s = o.encode ++ trailing) ∧
    (∀ o : Outcome, o.Addressable → decode o.encode = .ok o) ∧
    (∀ value, (applied value).Addressable → resultOf (applied value).encode = .ok value) ∧
    resultOf notFound.encode = .error .keyNotFound ∧
    (∀ reason, (rejected reason).Addressable →
      resultOf (rejected reason).encode = .error (.rejected reason)) ∧
    (∀ s, (∀ (o : Outcome) trailing, o.Addressable → s ≠ o.encode ++ trailing) →
      ∃ fault, Refused s fault) ∧
    (∀ (o : Outcome) front, o.Addressable → Cut front o.encode →
      Refused front .endOfData ∨ Refused front .endOfText) ∧
    (∀ number rest, 2 ≤ number → number < 2 ^ 32 →
      Refused (Layout.variant number ++ rest) (.badVariant number 2) ∧
      Refused (Layout.variant 1 ++ (Layout.variant number ++ rest)) (.badVariant number 2)) ∧
    (∀ (tag : UInt8) rest, tag ≠ 0 → tag ≠ 1 →
      Refused (Layout.variant 0 ++ tag :: rest) (.badOption tag.toNat)) ∧
    ∀ bytes rest, bytes.Addressable → (∀ reason, bytes ≠ Utf8.encode reason) →
      ∃ fault, Refused (Layout.variant 1 ++ (Layout.variant 1 ++ (Layout.sized bytes ++ rest)))
        (.badText fault) := by
  have zero := readVariants.ok (show 0 < 2 by decide)
  have one := readVariants.ok (show 1 < 2 by decide)
  refine ⟨fun s o => decode_eq_ok_iff, fun o => decode_encode, fun value => resultOf_encode,
    resultOf_encode trivial, fun reason => resultOf_encode, fun s => refused_of_foreign,
    ?_, ?_, ?_, ?_⟩
  · intro o front fits cut
    exact (read_cut fits cut).imp refused_of_read refused_of_read
  · intro number rest beyond word
    have first := Layout.readVariant_of_out_of_range beyond word rest
    constructor <;> apply refused_of_read
    · rw [read, first]
    · simp only [read, one, readFailure, first]
  · intro tag rest absent present
    apply refused_of_read
    simp only [read, zero, Layout.readOptional_of_out_of_range absent present]
  · intro bytes rest fits foreign
    obtain ⟨fault, broken⟩ := Layout.readText_of_no_text fits foreign rest
    refine ⟨fault, refused_of_read ?_⟩
    simp only [read, one, readFailure, broken]

/-- A value with bytes behind its report, a reason, a report that lost its last byte, numbers and
tags that are too large, half a character for a reason, and no bytes at all. -/
theorem decode_accepts_exactly_reports_samples :
    let done : Outcome := applied (some [0, 255])
    let refusal : Outcome := rejected "no"
    let half : Bytes := [195]
    done.Addressable ∧ refusal.Addressable ∧ half.Addressable ∧
    Cut done.encode.dropLast done.encode ∧
    decode (done.encode ++ [7]) = .ok done ∧ decode refusal.encode = .ok refusal ∧
    resultOf done.encode = .ok (some [0, 255]) ∧ resultOf refusal.encode = .error (.rejected "no") ∧
    (∃ fault, Refused [] fault) ∧
    (Refused done.encode.dropLast .endOfData ∨ Refused done.encode.dropLast .endOfText) ∧
    Refused (Layout.variant 2 ++ half) (.badVariant 2 2) ∧
    Refused (Layout.variant 0 ++ [7]) (.badOption 7) ∧
    ∃ fault, Refused (Layout.variant 1 ++ (Layout.variant 1 ++ Layout.sized half))
      (.badText fault) := by
  intro done refusal half
  obtain ⟨accepts, back, value, -, reason, foreign, cuts, numbers, tags, texts⟩ :=
    decode_accepts_exactly_reports
  have fits : done.Addressable := by
    rintro bytes ⟨⟩
    decide
  have fitsToo : refusal.Addressable := show (Utf8.encode "no").Addressable by decide
  have halfFits : half.Addressable := by decide
  have cut : Cut done.encode.dropLast done.encode := by decide +kernel
  have noText (text : String) : half ≠ Utf8.encode text := fun same => by
    have broken : Utf8.decode half = .error (.unfinished 0) := by decide +kernel
    rw [Utf8.decode_eq_ok_iff.mpr same] at broken
    cases broken
  have noReport (o : Outcome) (trailing : Bytes) (fits : o.Addressable) :
      [] ≠ o.encode ++ trailing := fun same => by
    have read := (accepts [] o).mpr ⟨fits, trailing, same⟩
    cases read
  refine ⟨fits, fitsToo, halfFits, cut, (accepts _ _).mpr ⟨fits, [7], rfl⟩, back refusal fitsToo,
    value _ fits, reason _ fitsToo, foreign [] noReport, cuts done _ fits cut,
    (numbers 2 half (by decide) (by decide)).1, tags 7 [] (by decide) (by decide), ?_⟩
  have refused := texts half [] halfFits noText
  rwa [List.append_nil] at refused

end Outcome

end LogKv
