import LogKv.Proofs.CommandRoundTrip
import LogKv.Proofs.HandledCommands
import LogKv.Proofs.ReplyRoundTrip
import LogKv.Proofs.ShownText

/-! Nothing that a node stores or says is too long to be sent. Values come in as parts of
commands and leave as they came, names are cut before they are repeated, and the other
texts are short if the names and the addresses of the nodes are. -/
namespace LogKv

/-! ## Stores without long values -/

/-- No value in the store is too long to be sent. -/
def Store.Short (s : Store) : Prop :=
  ∀ key value, s.get? key = some value → value.length ≤ Resp.maxBulk

/-- The value of the write, if it has one, is short enough to be sent. -/
def Entry.Short : Entry → Prop
  | put _ value => value.length ≤ Resp.maxBulk
  | delete _ => True

theorem Store.Short.effect {s : Store} (short : s.Short) {entry : Entry} (fits : entry.Short) :
    (entry.effect s).Short := by
  intro k v bound
  cases entry with
  | put key value =>
    rw [Entry.effect, Store.get?_put] at bound
    split at bound
    · cases bound
      exact fits
    · exact short k v bound
  | delete key =>
    rw [Entry.effect, Store.get?_erase] at bound
    split at bound
    · cases bound
    · exact short k v bound

/-- What is no entry leaves the store as it is. -/
theorem KeyValue.report_snd (s : Store) (frame : Bytes) :
    (report .memory s frame).2 =
      match Entry.decode frame with
      | .ok entry => entry.effect s
      | .error _ => s := by
  cases read : Entry.decode frame with
  | error fault => rw [report_of_fault .memory read]
  | ok entry => rw [report_of_entry read]

/-- The entries in these frames are short. -/
def ShortEntries (queue : List Proposal) : Prop :=
  ∀ p ∈ queue, ∀ entry, Entry.decode p.data = .ok entry → entry.Short

theorem Store.Short.applying {s : Store} (short : s.Short) {queue : List Proposal}
    (fits : ShortEntries queue) : (s.applying queue).Short := by
  induction queue generalizing s with
  | nil => exact short
  | cons p queue ih =>
    obtain ⟨first, later⟩ := List.forall_mem_cons.mp fits
    have next : (KeyValue.report .memory s p.data).2.Short := by
      rw [KeyValue.report_snd]
      cases frame : Entry.decode p.data with
      | error fault => exact short
      | ok entry => exact short.effect (first entry frame)
    exact ih next later

/-! ## Short texts -/

/-- The most bytes in the name of a node and in an address, as far as they are to be shown. -/
def maxName : Nat := 60000

/-- Every address in the book can be shown. -/
def AddressBook.Modest (book : AddressBook) : Prop :=
  ∀ node address, book.find? node = some address → address.utf8ByteSize ≤ maxName

/-- What is wrong with a command is said in few words. -/
theorem Request.invalid_size {command : Command} {fault : Fault}
    (invalid : Request.ofCommand command = .error fault) : fault.message.utf8ByteSize ≤ 1600 := by
  cases ofCommand_eq_iff.mp invalid with
  | nameless => decide
  | @unknown name operands none =>
    have short := shownName_size name
    rw [maxEchoedName] at short
    have size : (Fault.unknownCommand (shownName name)).message.utf8ByteSize =
        18 + (shownName name).utf8ByteSize := Text.size_between (by decide) _
    omega
  | @miscounted _ _ verb spelled count => cases verb <;> decide

theorem Reply.sendable_ofFault {fault : Fault} (short : fault.message.utf8ByteSize ≤ 65000) :
    (Reply.ofFault fault).Sendable := by
  have size : (s!"ERR {fault.message}").utf8ByteSize = 4 + fault.message.utf8ByteSize :=
    Text.size_behind (by decide) _
  rw [ofFault, failure, Sendable, size, Resp.maxLine]
  omega

theorem Replica.redirect_sendable {κ : Type} {replica : Replica κ} {book : AddressBook} {k : κ}
    (addresses : book.Modest)
    (named : ∀ leader, replica.leader k = some leader → leader.id.utf8ByteSize ≤ maxName) :
    (replica.redirect book k).Sendable := by
  have sent := replica.redirect_redirection book k
  generalize replica.redirect book k = reply at sent
  cases sent with
  | leaderless => exact Reply.sendable_ofFault (by decide)
  | @unrecorded leader pointer missing =>
    have short := named leader pointer
    have size : (Fault.addressUnknown leader.id).message.utf8ByteSize =
        38 + leader.id.utf8ByteSize := Text.size_between (by decide) _
    rw [maxName] at short
    exact Reply.sendable_ofFault (by omega)
  | @recorded leader address pointer found =>
    have short := addresses leader.id address found
    have size : (s!"MOVED {Reply.redirectIndex} {address}").utf8ByteSize =
        9 + address.utf8ByteSize := Text.size_behind (by decide) _
    rw [maxName] at short
    simp only [Reply.moved, Reply.Sendable, size, Resp.maxLine]
    omega

/-- A write is done, or finds nothing to delete. -/
theorem Reply.sendable_ofVerdict {request : Request} {entry : Entry} {done : Reply}
    (writes : request.write? = some (entry, done)) (s : Store) :
    (Reply.ofVerdict done (entry.outcome s).result).Sendable := by
  have missing : (Reply.ofFault .keyNotFound).Sendable := sendable_ofFault (by decide)
  have sent : done.Sendable := by
    cases request with
    | get key => cases writes
    | set key value =>
      cases writes
      decide
    | del key =>
      cases writes
      trivial
  cases entry with
  | put key value => exact sent
  | delete key =>
    rw [Entry.outcome]
    split
    · exact sent
    · exact missing

/-! ## Commands within the limits -/

theorem Command.Sendable.addressable {command : Command} (sendable : command.Sendable) :
    command.Addressable := by
  intro part member
  have short := sendable.2 part member
  rw [Resp.maxBulk] at short
  rw [Bytes.Addressable]
  omega

theorem Request.entry_short {command : Command} {request : Request} {entry : Entry} {done : Reply}
    (valid : ofCommand command = .ok request) (writes : request.write? = some (entry, done))
    (sendable : command.Sendable) : entry.Short := by
  cases request with
  | get key => cases writes
  | set key value =>
    cases writes
    exact sendable.2 value (operand_mem valid value (List.mem_cons_of_mem _ (.head _)))
  | del key =>
    cases writes
    trivial

namespace Node

/-- A node with an ordered log that holds no value too long to be sent, neither in its store nor
in its queue, and knows its leader by a name that can be shown. -/
structure Modest (node : Node) : Prop where
  ordered : node.log.engine.Ordered
  stored : node.store.Short
  queued : ShortEntries node.log.engine.queue
  named : ∀ leader, node.log.engine.leader = some leader → leader.id.utf8ByteSize ≤ maxName

variable {book : AddressBook} {node node' : Node} {command : Command} {reply : Reply}

theorem Handled.modest (handled : Handled book node command reply node') (modest : node.Modest)
    (sendable : command.Sendable) : node'.Modest := by
  cases handled with
  | refused | redirected | read | shut => exact modest
  | wrote valid writes leads applied =>
    have settled := modest.stored.applying modest.queued
    exact {
      ordered := applied.ordered
      stored := by
        rw [store, applied.state]
        exact settled.effect (Request.entry_short valid writes sendable)
      queued := by
        rw [applied.idle]
        exact fun p member => nomatch member
      named := by
        rw [applied.leader]
        exact modest.named }

theorem Handled.sendable (handled : Handled book node command reply node') (modest : node.Modest)
    (addresses : book.Modest) : reply.Sendable := by
  cases handled with
  | refused invalid =>
    exact Reply.sendable_ofFault (Nat.le_trans (Request.invalid_size invalid) (by decide))
  | redirected => exact Replica.redirect_sendable addresses modest.named
  | @read key =>
    rw [readReply_store]
    cases bound : node.store.get? key with
    | none => trivial
    | some value => exact modest.stored key value bound
  | shut => exact Reply.sendable_ofFault (by decide)
  | wrote valid writes => exact Reply.sendable_ofVerdict writes _

end Node

end LogKv
