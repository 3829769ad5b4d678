import LogKv.Proofs.SessionReplies
import LogKv.Proofs.ShortReplies
import LogKv.Proofs.WriteReplies

/-! Whole conversations. A client that sends commands within the limits reads back exactly
one reply to each, in order, however the bytes travel, and a value that was stored comes
back byte for byte. A node that starts without long values and names stays so from one
command to the next. -/
namespace LogKv

/-- The command does not write to this key. -/
def Command.Spares (key : Bytes) (command : Command) : Prop :=
  ∀ request, Request.ofCommand command = .ok request → request.verb.isWrite = true →
    request.key ≠ key

namespace Node

variable {book : AddressBook} {node node' : Node} {command : Command} {reply : Reply}

/-! ## Commands one after another -/

/-- What commands come to that are handled one after another, if no wait ends before its
write is applied. -/
inductive Conversed (book : AddressBook) : Node → List Command → List Reply → Node → Prop where
  | nil {node : Node} : Conversed book node [] [] node
  | cons {node node' node'' : Node} {command : Command} {reply : Reply} {later : List Command}
      {replies : List Reply} (head : Handled book node command reply node')
      (tail : Conversed book node' later replies node'') :
      Conversed book node (command :: later) (reply :: replies) node''

theorem Handled.ordered (handled : Handled book node command reply node')
    (ordered : node.log.engine.Ordered) : node'.log.engine.Ordered := by
  cases handled with
  | refused | redirected | read | shut => exact ordered
  | wrote valid writes leads applied => exact applied.ordered

theorem conversed (ordered : node.log.engine.Ordered) {commands : List Command}
    (sendable : ∀ c ∈ commands, c.Sendable)
    (punctual : node.Punctual (commands.map (.handle book))) :
    Conversed book node commands (answerAll (Node.handle book) node commands).1
      (answerAll (Node.handle book) node commands).2 := by
  induction commands generalizing node with
  | nil => exact .nil
  | cons command commands ih =>
    obtain ⟨now, later⟩ := punctual
    obtain ⟨first, others⟩ := List.forall_mem_cons.mp sendable
    have handled := handle_handled ordered book first.addressable (now book command rfl)
    exact .cons handled (ih (handled.ordered ordered) others later)

theorem Punctual.front {moves more : List Move} (punctual : node.Punctual (moves ++ more)) :
    node.Punctual moves := by
  induction moves generalizing node with
  | nil => trivial
  | cons move moves ih => exact ⟨punctual.1, ih punctual.2⟩

variable {commands later : List Command} {replies : List Reply}

theorem Conversed.append (conversed : Conversed book node (commands ++ later) replies node') :
    ∃ earlier rest between, replies = earlier ++ rest ∧ earlier.length = commands.length ∧
      Conversed book node commands earlier between ∧ Conversed book between later rest node' := by
  induction commands generalizing node replies with
  | nil => exact ⟨[], replies, node, rfl, rfl, .nil, conversed⟩
  | cons command commands ih =>
    cases conversed with
    | cons head tail =>
      obtain ⟨earlier, rest, between, rfl, sized, first, second⟩ := ih tail
      exact ⟨_ :: earlier, rest, between, rfl, congrArg (· + 1) sized, .cons head first, second⟩

theorem Conversed.modest (conversed : Conversed book node commands replies node')
    (modest : node.Modest) (sendable : ∀ c ∈ commands, c.Sendable) : node'.Modest := by
  induction conversed with
  | nil => exact modest
  | cons head tail ih =>
    obtain ⟨first, others⟩ := List.forall_mem_cons.mp sendable
    exact ih (head.modest modest first) others

theorem Conversed.sendable (conversed : Conversed book node commands replies node')
    (modest : node.Modest) (addresses : book.Modest) (sendable : ∀ c ∈ commands, c.Sendable) :
    ∀ r ∈ replies, r.Sendable := by
  induction conversed with
  | nil => exact fun r member => nomatch member
  | cons head tail ih =>
    obtain ⟨first, others⟩ := List.forall_mem_cons.mp sendable
    exact List.forall_mem_cons.mpr
      ⟨head.sendable modest addresses, ih (head.modest modest first) others⟩

/-! ## A value from its write to its read -/

variable {key value : Bytes}

/-- The node leads and binds the key to the value, and no write is under way. -/
structure Holds (key value : Bytes) (node : Node) : Prop where
  leads : node.log.engine.role = .leader
  idle : node.log.engine.queue = []
  bound : node.store.get? key = some value

theorem Handled.holds (handled : Handled book node command reply node')
    (holds : Holds key value node) (spares : command.Spares key) : Holds key value node' := by
  cases handled with
  | refused | redirected | read | shut => exact holds
  | @wrote request entry done _ valid writes leads applied =>
    refine ⟨applied.role.trans leads, applied.idle, ?_⟩
    have settled : node.log.engine.settled = node.store := by
      rw [Engine.settled, holds.idle]
      rfl
    rw [store, applied.state, settled]
    cases request with
    | get other => cases writes
    | set other bytes =>
      cases writes
      have apart : other ≠ key := spares _ valid rfl
      rw [Entry.effect, Store.get?_put, if_neg apart]
      exact holds.bound
    | del other =>
      cases writes
      have apart : other ≠ key := spares _ valid rfl
      rw [Entry.effect, Store.get?_erase, if_neg apart]
      exact holds.bound

theorem Conversed.holds (conversed : Conversed book node commands replies node')
    (holds : Holds key value node) (spares : ∀ c ∈ commands, c.Spares key) :
    Holds key value node' := by
  induction conversed with
  | nil => exact holds
  | cons head tail ih =>
    obtain ⟨first, others⟩ := List.forall_mem_cons.mp spares
    exact ih (head.holds holds first) others

end Node

end LogKv
