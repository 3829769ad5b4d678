import LogKv.Proofs.FramingDecisions
import LogKv.Resp.Stream

/-! Streams that arrive in parts. The items of a part are the first items of the
whole, and when more bytes arrive only those behind the last item are looked at
again. What stands behind the last item has no part in the items before it. -/
namespace LogKv.Resp

namespace Reader

variable {α : Type} {reader : Reader α} {s rest : Bytes} {a : α} {fault : Fault}

/-- The fault at which the reading of a stream ends. -/
def stop (reader : Reader α) (s : Bytes) : Fault := (reader.readAll s).2

/-- The bytes behind the last item of a stream. -/
def unread (reader : Reader α) (s : Bytes) : Bytes :=
  ((reader.readAll s).1.getLast?.map Prod.snd).getD s

/-- Reading ends, so what holds where it stops and is carried back over each item
holds of every stream. -/
theorem induction (reader : Reader α) {motive : Bytes → Prop}
    (stopped : ∀ s fault, reader.read s = .error fault → motive s)
    (item : ∀ s a rest, reader.read s = .ok (a, rest) → motive rest → motive s) (s : Bytes) :
    motive s := by
  induction hn : s.length using Nat.strongRecOn generalizing s with
  | ind n ih =>
    subst hn
    cases taken : reader.read s with
    | error fault => exact stopped s fault taken
    | ok part => exact item s part.1 part.2 taken (ih _ (reader.shortens taken) _ rfl)

/-! ## One item after another -/

theorem items_of_ok (taken : reader.read s = .ok (a, rest)) :
    reader.items s = a :: reader.items rest := by
  rw [items, readAll_eq, taken]
  rfl

theorem stop_of_ok (taken : reader.read s = .ok (a, rest)) : reader.stop s = reader.stop rest := by
  rw [stop, readAll_eq, taken]
  rfl

theorem unread_of_ok (taken : reader.read s = .ok (a, rest)) :
    reader.unread s = reader.unread rest := by
  rw [unread, unread, readAll_eq, taken]
  simp only [List.getLast?_cons]
  cases (reader.readAll rest).1.getLast? <;> rfl

theorem items_of_error (stopped : reader.read s = .error fault) : reader.items s = [] := by
  rw [items, readAll_eq, stopped]
  rfl

theorem stop_of_error (stopped : reader.read s = .error fault) : reader.stop s = fault := by
  rw [stop, readAll_eq, stopped]

theorem unread_of_error (stopped : reader.read s = .error fault) : reader.unread s = s := by
  rw [unread, readAll_eq, stopped]
  rfl

theorem read_unread (reader : Reader α) (s : Bytes) :
    reader.read (reader.unread s) = .error (reader.stop s) := by
  induction s using reader.induction with
  | stopped s fault stopped => rw [unread_of_error stopped, stop_of_error stopped, stopped]
  | item s a rest taken ih => rw [unread_of_ok taken, stop_of_ok taken, ih]

theorem read_of_items_nil (none : reader.items s = []) :
    reader.read s = .error (reader.stop s) := by
  cases taken : reader.read s with
  | error fault => rw [stop_of_error taken]
  | ok part =>
    have some : reader.items s = part.1 :: reader.items part.2 := items_of_ok taken
    rw [none] at some
    cases some

/-- A stream of items that are each read back from their encodings is these items. -/
theorem encoded {β : Type} (reader : Reader α) (encode : β → Bytes) (shown : β → α) {list : List β}
    (back : ∀ b ∈ list, ∀ rest, reader.read (encode b ++ rest) = .ok (shown b, rest))
    (ended : reader.read [] = .error .endOfInput) :
    reader.items (list.flatMap encode) = list.map shown ∧
    reader.stop (list.flatMap encode) = .endOfInput ∧ reader.unread (list.flatMap encode) = [] := by
  induction list with
  | nil => exact ⟨items_of_error ended, stop_of_error ended, unread_of_error ended⟩
  | cons b list ih =>
    obtain ⟨first, later⟩ := List.forall_mem_cons.mp back
    obtain ⟨items, stop, unread⟩ := ih later
    have taken := first (list.flatMap encode)
    rw [List.flatMap_cons, items_of_ok taken, stop_of_ok taken, unread_of_ok taken, items]
    exact ⟨rfl, stop, unread⟩

/-! ## More bytes, and other bytes -/

section Grammars
variable {grammar : Bytes → α → Prop}

/-- The bytes of the items are read as these items whatever follows them. -/
theorem front (reader : Reader α) (reads : Reads reader.read grammar) (s : Bytes) :
    ∃ front, s = front ++ reader.unread s ∧ ∀ tail,
      reader.items (front ++ tail) = reader.items s ++ reader.items tail ∧
      reader.stop (front ++ tail) = reader.stop tail ∧
      reader.unread (front ++ tail) = reader.unread tail := by
  induction s using reader.induction with
  | stopped s fault stopped =>
    refine ⟨[], (unread_of_error stopped).symm, fun tail => ?_⟩
    rw [items_of_error stopped]
    exact ⟨rfl, rfl, rfl⟩
  | item s a rest taken ih =>
    obtain ⟨first, rfl, holds⟩ := reads.front taken
    obtain ⟨front, split, more⟩ := ih
    refine ⟨first ++ front, ?_, fun tail => ?_⟩
    · rw [unread_of_ok taken, List.append_assoc, ← split]
    · have again := reads.ok holds (front ++ tail)
      obtain ⟨items, stop, unread⟩ := more tail
      rw [List.append_assoc, items_of_ok again, stop_of_ok again, unread_of_ok again, items, stop,
        unread, items_of_ok taken]
      exact ⟨rfl, rfl, rfl⟩

/-- When more bytes arrive, reading goes on behind the last item. -/
theorem append (reader : Reader α) (reads : Reads reader.read grammar) (s more : Bytes) :
    reader.items (s ++ more) = reader.items s ++ reader.items (reader.unread s ++ more) ∧
    reader.stop (s ++ more) = reader.stop (reader.unread s ++ more) ∧
    reader.unread (s ++ more) = reader.unread (reader.unread s ++ more) := by
  obtain ⟨front, split, behind⟩ := reader.front reads s
  have whole : s ++ more = front ++ (reader.unread s ++ more) := by
    rw [← List.append_assoc, ← split]
  rw [whole]
  exact behind _

/-- Once the framing is broken, more bytes change nothing. -/
theorem append_of_broken (reader : Reader α) (reads : Reads reader.read grammar)
    (settles : Settles reader.read) (broken : reader.stop s ≠ .endOfInput) (more : Bytes) :
    reader.items (s ++ more) = reader.items s ∧ reader.stop (s ++ more) = reader.stop s := by
  have refused := settles.refused (reader.read_unread s) broken more
  obtain ⟨items, stop, -⟩ := reader.append reads s more
  rw [items, stop, items_of_error refused, stop_of_error refused, List.append_nil]
  exact ⟨rfl, rfl⟩

/-- Bytes that complete an item are more than those that stay behind it. -/
theorem unread_shorter (reader : Reader α) (reads : Reads reader.read grammar) {more : Bytes}
    (none : reader.items s = []) (some : reader.items (s ++ more) ≠ []) :
    (reader.unread (s ++ more)).length < more.length := by
  by_contra long
  obtain ⟨front, split, behind⟩ := reader.front reads (s ++ more)
  -- Otherwise what the items take would already be in `s`.
  have early : front.length ≤ s.length := by
    have whole := congrArg List.length split
    simp only [List.length_append] at whole
    omega
  obtain ⟨later, rfl⟩ : front <+: s := List.prefix_of_prefix_length_le
    ⟨_, split.symm⟩ (List.prefix_append s more) early
  rw [(behind later).1] at none
  exact some (List.append_eq_nil_iff.mp none).1

end Grammars

end Reader

theorem readCommand_nil : readCommand [] = .error .endOfInput := (readCommand_eq []).trans rfl

end LogKv.Resp
