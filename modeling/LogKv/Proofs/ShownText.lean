import LogKv.Proofs.DecimalNumerals
import LogKv.Proofs.UpperCase
import LogKv.Request
import LogKv.Resp.Fault

/-! How long a text can be that shows something: bytes of a client, a command name, a
number. Bytes grow when they are shown, at most to three times their number, as where each
of them is shown as a replacement character. Upper case can make characters longer too, but
never beyond that; what is cut before it is shown stays short all the same. -/
namespace LogKv

/-! ## Words around a text -/

theorem Text.size_behind {front : String} {n : Nat} (words : front.utf8ByteSize = n)
    (text : String) : (front ++ text).utf8ByteSize = n + text.utf8ByteSize := by
  rw [String.utf8ByteSize_append, words]

theorem Text.size_between {front back : String} {n : Nat}
    (words : front.utf8ByteSize + back.utf8ByteSize = n) (text : String) :
    (front ++ text ++ back).utf8ByteSize = n + text.utf8ByteSize := by
  rw [String.utf8ByteSize_append, String.utf8ByteSize_append, ← words]
  omega

theorem Text.head?_append {front : String} {c : Char} (head : front.toList.head? = some c)
    (rest : String) : (front ++ rest).toList.head? = some c := by
  rw [String.toList_append, List.head?_append, head, Option.some_or]

theorem Text.utf8Len_le (chars : List Char) : String.utf8Len chars ≤ 4 * chars.length := by
  induction chars with
  | nil => simp
  | cons c chars ih =>
    have := c.utf8Size_le_four
    rw [String.utf8Len_cons, List.length_cons]
    omega

/-! ## The bytes of a piece -/

namespace Utf8
namespace Piece
variable {low high : UInt8} {more lead taken : Nat} {s rest : Bytes}

/-- How many bytes a piece takes up. -/
def size : Piece → Nat
  | whole c => c.utf8Size
  | broken length | unfinished length => length

theorem continued_size {piece : Piece}
    (found : continued more low high lead taken s = (piece, rest))
    (broken : ∀ c, piece ≠ whole c) : piece.size + rest.length = taken + s.length := by
  induction more generalizing low high lead taken s with
  | zero =>
    obtain ⟨rfl, rfl⟩ := Prod.ext_iff.mp found
    exact absurd rfl (broken _)
  | succ more ih =>
    cases s with
    | nil =>
      obtain ⟨rfl, rfl⟩ := Prod.ext_iff.mp found
      rfl
    | cons b s =>
      rw [continued] at found
      split at found
      · rw [ih found, List.length_cons]
        omega
      · obtain ⟨rfl, rfl⟩ := Prod.ext_iff.mp found
        rfl

/-- A piece and what follows it are all there is. -/
theorem first_size (b : UInt8) (s : Bytes) :
    (first b s).1.size + (first b s).2.length = s.length + 1 := by
  cases found : first b s with
  | mk piece rest =>
    by_cases character : ∃ c, piece = whole c
    · obtain ⟨c, rfl⟩ := character
      have length := congrArg List.length (first_whole found)
      rw [List.length_cons, List.length_append, String.length_utf8EncodeChar] at length
      exact length.symm
    · have broken (c : Char) (same : piece = whole c) : False := character ⟨c, same⟩
      rw [Nat.add_comm s.length]
      unfold first at found
      repeat' split at found
      all_goals first
        | exact continued_size found broken
        | obtain ⟨rfl, rfl⟩ := Prod.ext_iff.mp found; rfl

end Piece

/-- The pieces of a byte string take up all of it. -/
theorem size_pieces (s : Bytes) : ((pieces s).map Piece.size).sum = s.length := by
  induction hn : s.length using Nat.strongRecOn generalizing s with
  | ind n ih =>
    subst hn
    cases s with
    | nil => rw [pieces_nil, List.map_nil, List.sum_nil, List.length_nil]
    | cons b s =>
      have later := ih _ (Nat.lt_succ_of_le (Piece.first_length b s)) _ rfl
      rw [pieces_cons, List.map_cons, List.sum_cons, later, Piece.first_size, List.length_cons]

/-! ## Bytes read as text -/

theorem encode_length (text : String) : (encode text).length = text.utf8ByteSize := by
  conv => rhs; rw [← String.ofList_toList (s := text)]
  rw [← String.size_toByteArray, String.toByteArray_ofList, List.utf8Encode,
    List.size_toByteArray, encode]

section Growth
variable {grow : Char → List Char}

/-- What is shown for a piece grows to at most three bytes for each byte of the piece. The
replacement character can stand for a single byte, so it must not grow itself. -/
theorem Piece.shown_size (whole : ∀ c, String.utf8Len (grow c) ≤ 3 * c.utf8Size)
    (broken : String.utf8Len (grow '\uFFFD') ≤ 3) (b : UInt8) (s : Bytes) :
    String.utf8Len (grow (first b s).1.shown) + 3 * (first b s).2.length ≤
      3 * (s.length + 1) := by
  have account := first_size b s
  have shorter := first_length b s
  cases taken : (first b s).1 with
  | whole c =>
    have grown := whole c
    rw [taken, size] at account
    rw [shown]
    omega
  | broken | unfinished =>
    rw [shown]
    omega

theorem flatMap_lossy_size (whole : ∀ c, String.utf8Len (grow c) ≤ 3 * c.utf8Size)
    (broken : String.utf8Len (grow '\uFFFD') ≤ 3) (s : Bytes) :
    String.utf8Len ((lossy s).toList.flatMap grow) ≤ 3 * s.length := by
  rw [lossy, String.toList_ofList]
  induction hn : s.length using Nat.strongRecOn generalizing s with
  | ind n ih =>
    subst hn
    cases s with
    | nil => simp
    | cons b s =>
      have later := ih _ (Nat.lt_succ_of_le (Piece.first_length b s)) _ rfl
      have now := Piece.shown_size whole broken b s
      rw [pieces_cons, List.map_cons, List.flatMap_cons, String.utf8Len_append, List.length_cons]
      omega

end Growth

theorem lossy_size (s : Bytes) : (lossy s).utf8ByteSize ≤ 3 * s.length := by
  have whole (c : Char) : String.utf8Len [c] ≤ 3 * c.utf8Size := by
    rw [String.utf8Len_cons, String.utf8Len_nil]
    omega
  have bound := flatMap_lossy_size whole (by decide) s
  rwa [List.flatMap_singleton', ← String.utf8ByteSize_ofList, String.ofList_toList] at bound

/-- Upper case adds nothing to the worst that bytes can grow to. -/
theorem upper_lossy_size (s : Bytes) : (Text.upper (lossy s)).utf8ByteSize ≤ 3 * s.length := by
  rw [Text.upper, String.utf8ByteSize_ofList]
  exact flatMap_lossy_size Text.upperChar_size (by decide +kernel) s

end Utf8

/-- A command name is cut before it is shown. -/
theorem Request.shownName_size (name : Bytes) :
    (shownName name).utf8ByteSize ≤ 3 * min name.length maxEchoedName := by
  have bound := Utf8.upper_lossy_size (name.take maxEchoedName)
  rwa [List.length_take, Nat.min_comm] at bound

/-! ## Numbers -/

namespace Decimal

theorem repr_size (n : Nat) : n.repr.utf8ByteSize = (digits n).length := by
  have size {chars : List Char} (digits : ∀ c ∈ chars, c.isDigit = true) :
      String.utf8Len chars = chars.length := by
    induction chars with
    | nil => rfl
    | cons c chars ih =>
      obtain ⟨digit, later⟩ := List.forall_mem_cons.mp digits
      have high := (Char.isDigit_iff_toNat.mp digit).2
      have one : c.utf8Size = 1 :=
        Text.utf8Size_eq_one_iff.mpr (Nat.lt_of_le_of_lt high (by decide))
      rw [String.utf8Len_cons, List.length_cons, ih later, one]
  rw [Nat.repr_eq_ofList_toDigits, String.utf8ByteSize_ofList, digits, List.length_map,
    size fun c member => Nat.isDigit_of_mem_toDigits (by decide) (by decide) member]

theorem toString_size (n : Int) : (toString n).utf8ByteSize = (write n).length := by
  cases n with
  | ofNat n => exact repr_size n
  | negSucc n =>
    have size : (toString (Int.negSucc n)).utf8ByteSize = 1 + (n + 1).repr.utf8ByteSize :=
      Text.size_behind rfl _
    rw [size, repr_size, write, List.length_cons, Nat.add_comm]

end Decimal

end LogKv
