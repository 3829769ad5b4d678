import LogKv.Proofs.FrameGrammar
import LogKv.Resp.Stream

/-! What is written is read back, whatever follows it. Lines, headers and bulk
strings within the limits hold what they were written for, and those beyond a
limit are refused; a stream of items that are each read back is read item by
item, and what comes after it is read as if it stood alone. -/
namespace LogKv.Resp

/-! ## Lines and headers -/

theorem crlf_text (line rest : Bytes) :
    line ++ Bytes.crlf ++ rest = (line ++ [Ascii.carriageReturn]) ++ Ascii.lineFeed :: rest := by
  simp [Bytes.crlf]

theorem not_mem_text {line : Bytes} (unbroken : Ascii.lineFeed ∉ line) :
    Ascii.lineFeed ∉ line ++ [Ascii.carriageReturn] := by
  rw [List.mem_append, List.mem_singleton]
  rintro (member | feed)
  · exact unbroken member
  · exact absurd feed (by decide)

theorem holdsLine_crlf {line : Bytes} (unbroken : Ascii.lineFeed ∉ line)
    (short : line.length < maxLine) : HoldsLine (line ++ Bytes.crlf) line := by
  refine ⟨line ++ [Ascii.carriageReturn], ?_, not_mem_text unbroken, ?_, .inl rfl⟩
  · simpa using crlf_text line []
  · rwa [List.length_append, List.length_singleton]

theorem readLine_crlf {line : Bytes} (unbroken : Ascii.lineFeed ∉ line) (rest : Bytes) :
    readLine (line ++ Bytes.crlf ++ rest) =
      if maxLine ≤ line.length then .error .lineTooLong else .ok (line, rest) := by
  rw [crlf_text, readLine_text (not_mem_text unbroken), dropReturn_eq_iff.mpr (.inl rfl)]
  simp only [List.length_append, List.length_singleton, Nat.lt_succ_iff]

theorem write_unbroken (n : Int) : Ascii.lineFeed ∉ Decimal.write n := fun member =>
  absurd ((Decimal.write_signed n).plus_le _ member) (by decide)

theorem holdsLine_header (kind : UInt8) (visible : Ascii.lineFeed ≠ kind) {n : Int}
    (low : -2 ^ 63 ≤ n) (high : n < 2 ^ 63) :
    HoldsLine (header kind n) (kind :: Decimal.write n) := by
  have length := Decimal.write_length low high
  refine holdsLine_crlf (List.not_mem_cons_of_ne_of_not_mem visible (write_unbroken n)) ?_
  rw [List.length_cons, maxLine]
  omega

/-- Whatever its number, a header is refused as a line or shows that number. -/
theorem readLine_header (kind : UInt8) (visible : Ascii.lineFeed ≠ kind) (n : Int) (rest : Bytes) :
    readLine (header kind n ++ rest) = .error .lineTooLong ∨
      readLine (header kind n ++ rest) = .ok (kind :: Decimal.write n, rest) := by
  have unbroken := List.not_mem_cons_of_ne_of_not_mem visible (write_unbroken n)
  rw [header, readLine_crlf unbroken]
  split
  · exact .inl rfl
  · exact .inr rfl

theorem readLength_write (n : Int) :
    readLength (Decimal.write n) = .ok n ∨
      readLength (Decimal.write n) = .error (.badLength (Decimal.write n)) := by
  rw [readLength, Decimal.read?_write]
  split <;> simp_all

/-! ## Bulk strings -/

theorem holdsBulk_bulk {body : Bytes} (short : body.length ≤ maxBulk) :
    HoldsBulk (bulk body) body := by
  rw [maxBulk] at short
  have low : -2 ^ 63 ≤ (body.length : Int) := by omega
  have high : (body.length : Int) < 2 ^ 63 := by omega
  exact .mk (holdsLine_header _ (by decide) low high) (Decimal.write_numeral low high) short

theorem readElement_bulk_of_long {body : Bytes} (long : maxBulk < body.length) (rest : Bytes) :
    Refuses readElement (bulk body ++ rest) := by
  have line := readLine_header Ascii.dollar (by decide) body.length
    (body ++ (Bytes.crlf ++ rest))
  rw [Refuses, bulk, List.append_assoc, List.append_assoc, readElement]
  rcases line with line | line
  · rw [line]
    exact ⟨_, rfl, by simp⟩
  · rw [line]
    rcases readLength_write body.length with length | length
    · simp [length, Nat.not_le.mpr long]
    · simp [length]

/-! ## Streams of items -/

section Streams
variable {α β : Type}

/-- What items are read as, each with the encodings after it. -/
def readings (encode : β → Bytes) (shown : β → α) (t : Bytes) : List β → List (α × Bytes)
  | [] => []
  | b :: items => (shown b, items.flatMap encode ++ t) :: readings encode shown t items

theorem readAll_encoded (reader : Reader α) (encode : β → Bytes) (shown : β → α)
    {items : List β} (t : Bytes)
    (back : ∀ b ∈ items, ∀ rest, reader.read (encode b ++ rest) = .ok (shown b, rest)) :
    reader.readAll (items.flatMap encode ++ t) =
      (readings encode shown t items ++ (reader.readAll t).1, (reader.readAll t).2) := by
  induction items with
  | nil => rfl
  | cons b items ih =>
    have head := back b List.mem_cons_self (items.flatMap encode ++ t)
    have tail := ih fun c member => back c (List.mem_cons_of_mem b member)
    rw [List.flatMap_cons, List.append_assoc, Reader.readAll_eq, head]
    simp only [tail, readings, List.cons_append]

end Streams

end LogKv.Resp
