import LogKv.Replica
import LogKv.Proofs.CheckedCommands
import LogKv.Proofs.LayoutRoundTrip

/-! What commands do. A write is one entry of the log; the state machine over a
store in memory carries it out and reports on it, and the submitter reads the
verdict out of the report. How a command is answered is said here once for any
replica, by the shape of its request. -/
namespace LogKv

/-! ## Writes -/

/-- The store after a write. -/
def Entry.effect : Entry → Store → Store
  | put key value, s => s.put key value
  | delete key, s => s.erase key

/-- The report on a write to this store. -/
def Entry.outcome : Entry → Store → Outcome
  | put _ _, _ => .applied none
  | delete key, s => if (s.get? key).isSome then .applied none else .notFound

theorem Entry.resultOf_outcome (entry : Entry) (s : Store) :
    Outcome.resultOf (entry.outcome s).encode = (entry.outcome s).result := by
  cases entry with
  | put key value => rfl
  | delete key =>
    simp only [Entry.outcome]
    split <;> rfl

namespace KeyValue

/-- A frame that is read as an entry has its write carried out, over any store. -/
theorem report_of_write {σ : Type} (storage : Storage σ) {frame : Bytes} {entry : Entry}
    (read : Entry.decode frame = .ok entry) (s : σ) :
    report storage s frame =
      match write storage s entry.record with
      | .ok s => (.applied none, s)
      | .error .keyNotFound => (.notFound, s)
      | .error fault => (.rejected fault.message, s) := by
  have found := Entry.recordIn_of_ok read
  cases wrote : write storage s entry.record with
  | ok s => simp only [report, found, wrote]
  | error fault => cases fault <;> simp only [report, found, wrote]

theorem report_of_fault {σ : Type} (storage : Storage σ) {frame : Bytes} {fault : Entry.Fault}
    (refused : Entry.decode frame = .error fault) (s : σ) :
    report storage s frame = (.rejected fault.toFault.message, s) := by
  rw [report, Entry.recordIn_of_error refused]

theorem report_of_entry {frame : Bytes} {entry : Entry} (read : Entry.decode frame = .ok entry)
    (s : Store) : report .memory s frame = (entry.outcome s, entry.effect s) := by
  rw [report_of_write .memory read]
  cases entry with
  | put key value => rfl
  | delete key =>
    simp only [write, Entry.record, Storage.memory, Entry.outcome, Entry.effect]
    cases bound : s.get? key with
    | none => simp [Store.erase_of_unbound bound]
    | some value => simp

theorem report_encode {entry : Entry} (fits : entry.Addressable) (s : Store) :
    report .memory s entry.encode = (entry.outcome s, entry.effect s) :=
  report_of_entry (Entry.decode_encode fits) s

/-- The state machine carries out the write in a frame and reports on it. -/
theorem apply_encode {entry : Entry} (fits : entry.Addressable) (s : Store) (index : Nat) :
    (machine .memory).apply s index entry.encode =
      some ((entry.outcome s).encode, entry.effect s) := by
  simp only [machine, respond, report_encode fits]

end KeyValue

/-! ## Requests -/

/-- The entry that a write puts in the log, and the reply to a write that took effect. -/
def Request.write? : Request → Option (Entry × Reply)
  | get _ => none
  | set key value => some (.put key value, .ok)
  | del key => some (.delete key, .integer 1)

theorem Request.write?_eq_none_iff {request : Request} :
    request.write? = none ↔ request.verb.isWrite = false := by
  cases request <;> simp [write?, verb, Verb.isWrite]

theorem Request.write?_succeeds {request : Request} {entry : Entry} {done : Reply}
    (writes : request.write? = some (entry, done)) : done.isError = false := by
  cases request with
  | get key => cases writes
  | set key value =>
    obtain ⟨-, rfl⟩ := Prod.mk.inj (Option.some.inj writes)
    rfl
  | del key =>
    obtain ⟨-, rfl⟩ := Prod.mk.inj (Option.some.inj writes)
    rfl

/-- The reply to a write with this verdict. -/
def Reply.ofVerdict (done : Reply) : Except Fault (Option Bytes) → Reply
  | .ok _ => done
  | .error fault => .ofFault fault

/-- A command all of whose parts a memory can hold. -/
def Command.Addressable (command : Command) : Prop := ∀ part ∈ command.parts, part.Addressable

instance (command : Command) : Decidable command.Addressable :=
  inferInstanceAs (Decidable (∀ part ∈ command.parts, part.Addressable))

/-- The entry of a command has the parts of the command. -/
theorem Request.entry_addressable {command : Command} {request : Request} {entry : Entry}
    {done : Reply} (valid : ofCommand command = .ok request)
    (writes : request.write? = some (entry, done)) (fits : command.Addressable) :
    entry.Addressable := by
  have operands : ∀ part ∈ request.operands, part.Addressable :=
    fun part member => fits part (operand_mem valid part member)
  cases request with
  | get key => cases writes
  | set key value =>
    cases writes
    exact ⟨operands key List.mem_cons_self, operands value (List.mem_cons_of_mem _ (.head _))⟩
  | del key =>
    cases writes
    exact operands key List.mem_cons_self

/-- The courses that a command can take at a node in this role. -/
inductive Command.Course (role : Role) (command : Command) : Prop where
  | refused {fault : Fault} (invalid : Request.ofCommand command = .error fault)
  | redirected {request : Request} (valid : Request.ofCommand command = .ok request)
      (other : role ≠ .leader)
  | read {key : Bytes} (valid : Request.ofCommand command = .ok (.get key))
      (leads : role = .leader)
  | written {request : Request} {entry : Entry} {done : Reply}
      (valid : Request.ofCommand command = .ok request)
      (writes : request.write? = some (entry, done)) (leads : role = .leader)

theorem Command.course (role : Role) (command : Command) : command.Course role := by
  cases checked : Request.ofCommand command with
  | error fault => exact .refused checked
  | ok request =>
    by_cases leads : role = .leader
    · cases request with
      | get key => exact .read checked leads
      | set key value => exact .written checked rfl leads
      | del key => exact .written checked rfl leads
    · exact .redirected checked leads

namespace Replica

variable {κ : Type} {replica : Replica κ} {book : AddressBook} {k : κ} {command : Command}
  {request : Request}

theorem commit_fst (replica : Replica κ) (k : κ) (entry : Entry) :
    (replica.commit k entry).1 = (replica.propose k entry.encode).1 >>= Outcome.resultOf := by
  rw [commit]
  split <;> rename_i proposed <;> rw [proposed] <;> rfl

theorem commit_snd (replica : Replica κ) (k : κ) (entry : Entry) :
    (replica.commit k entry).2 = (replica.propose k entry.encode).2 := by
  rw [commit]
  split <;> rename_i proposed <;> rw [proposed]

/-- Where a client is sent, and why it is not sent anywhere. -/
inductive Redirection (replica : Replica κ) (book : AddressBook) (k : κ) : Reply → Prop where
  | leaderless (pointer : replica.leader k = none) :
      Redirection replica book k (.ofFault .leaderUnknown)
  | unrecorded {leader : Leader} (pointer : replica.leader k = some leader)
      (missing : book.find? leader.id = none) :
      Redirection replica book k (.ofFault (.addressUnknown leader.id))
  | recorded {leader : Leader} {address : String} (pointer : replica.leader k = some leader)
      (found : book.find? leader.id = some address) :
      Redirection replica book k (.moved address)

theorem redirect_redirection (replica : Replica κ) (book : AddressBook) (k : κ) :
    Redirection replica book k (replica.redirect book k) := by
  rw [redirect, leaderAddress]
  cases pointer : replica.leader k with
  | none => exact .leaderless pointer
  | some leader =>
    simp only [AddressBook.address]
    cases found : book.find? leader.id with
    | none => exact .unrecorded pointer found
    | some address => exact .recorded pointer found

theorem handle_of_invalid {fault : Fault} (invalid : Request.ofCommand command = .error fault) :
    replica.handle book k command = (.ofFault fault, k) := by
  rw [handle, invalid]

theorem handle_of_not_leader (valid : Request.ofCommand command = .ok request)
    (other : replica.role k ≠ .leader) :
    replica.handle book k command = (replica.redirect book k, k) := by
  rw [handle, valid]
  exact if_neg (by simpa [isLeader] using other)

theorem handle_of_get {key : Bytes} (valid : Request.ofCommand command = .ok (.get key))
    (leads : replica.role k = .leader) :
    replica.handle book k command = (replica.readReply k key, k) := by
  rw [handle, valid]
  exact if_pos (by simpa [isLeader] using leads)

theorem handle_of_write {entry : Entry} {done : Reply}
    (valid : Request.ofCommand command = .ok request)
    (writes : request.write? = some (entry, done)) (leads : replica.role k = .leader) :
    replica.handle book k command =
      (.ofVerdict done (replica.commit k entry).1, (replica.commit k entry).2) := by
  have served : replica.serve book k request = replica.writeReply done k entry := by
    have leading : replica.isLeader k = true := by simpa [isLeader] using leads
    cases request with
    | get key => simp [Request.write?] at writes
    | set key value =>
      obtain ⟨rfl, rfl⟩ := Prod.mk.inj (Option.some.inj writes)
      simp only [serve, leading, if_true]
    | del key =>
      obtain ⟨rfl, rfl⟩ := Prod.mk.inj (Option.some.inj writes)
      simp only [serve, leading, if_true]
  rw [handle, valid]
  simp only [served, writeReply]
  split <;> rename_i committed <;> rw [committed] <;> rfl

end Replica

end LogKv
