import LogKv.Proofs.HandledCommands
import LogKv.Proofs.ReadableReports
import LogKv.Replica.Rehearsed

/-! Stores that fail. A read hands on what its store says at once; what the store says of
a write is put into words, travels through the log as a report, and is read out of it by
the submitter. Both come to the same error reply, whatever the store says. Only an unbound
key is told apart, on either way, because it is no failure to those who read. -/
namespace LogKv

variable {σ κ : Type}

/-! ## The report on a failed write -/

/-- The report on a write that the store fails with this fault. -/
def Outcome.ofFailure (fault : Fault) : Outcome :=
  if fault = .keyNotFound then .notFound else .rejected fault.message

theorem Outcome.ofFailure_addressable {fault : Fault}
    (fits : (Utf8.encode fault.message).Addressable) : (ofFailure fault).Addressable := by
  unfold ofFailure
  split
  · trivial
  · exact fits

theorem KeyValue.report_failing {entry : Entry} (fits : entry.Addressable) (fault : Fault) (s : σ) :
    report (.failing fault) s entry.encode = (.ofFailure fault, s) := by
  have failed : write (.failing fault) s entry.record = .error fault := by cases entry <;> rfl
  rw [report_of_write (.failing fault) (Entry.decode_encode fits)]
  simp only [failed]
  cases fault <;> rfl

/-- The reply to a write that the store failed. -/
theorem Reply.ofVerdict_ofFailure (done : Reply) (fault : Fault) :
    ofVerdict done (Outcome.ofFailure fault).result = .ofFault fault := by
  unfold Outcome.ofFailure
  split
  · next unbound => rw [unbound]; rfl
  · rfl

/-! ## Logs that apply what they are given -/

namespace Replica

/-- The node leads, reads from the storage, and puts what is proposed through the state machine
over the storage before the wait for the response ends. -/
structure AppliesOver (replica : Replica κ) (storage : Storage σ) (k : κ) : Prop where
  leads : replica.role k = .leader
  reads : ∃ s, ∀ key, replica.read k key = storage.get s key
  applies : ∀ frame, ∃ s,
    (replica.propose k frame).1 = .ok (KeyValue.respond storage s frame).1

/-- How a request is answered where every call of the store fails with this fault. -/
structure TellsFailure (replica : Replica κ) (book : AddressBook) (k : κ) (command : Command)
    (request : Request) (fault : Fault) : Prop where
  /-- Reads and writes are answered in the same words. -/
  alike : fault ≠ .keyNotFound →
    (replica.handle book k command).1 = .error ("ERR " ++ fault.message)
  /-- But those who read an unbound key are not told of a failure. -/
  unbound : fault = .keyNotFound → (replica.handle book k command).1 =
    if request.verb.isWrite then .error "ERR key not found" else .null
  /-- A write is answered by the report on it, which can be read and is no success. -/
  reported : ∀ entry done, request.write? = some (entry, done) →
    (∃ raw, (replica.propose k entry.encode).1 = .ok raw ∧
      Outcome.decode raw = .ok (.ofFailure fault)) ∧
    (replica.commit k entry).1 = (Outcome.ofFailure fault).result ∧
    (∀ waited, (replica.commit k entry).1 ≠ .error (.applyTimeout waited)) ∧
    (replica.handle book k command).1.isError = true

variable {replica : Replica κ} {k : κ} {command : Command} {request : Request} {fault : Fault}

theorem AppliesOver.reply_to_get (applying : replica.AppliesOver (.failing fault : Storage σ) k)
    {key : Bytes} (valid : Request.ofCommand command = .ok (.get key)) (book : AddressBook) :
    (replica.handle book k command).1 = if fault = .keyNotFound then .null else .ofFault fault := by
  obtain ⟨s, reads⟩ := applying.reads
  have failed : replica.read k key = .error fault := reads key
  rw [handle_of_get valid applying.leads, readReply, failed]
  cases fault <;> rfl

theorem AppliesOver.response (applying : replica.AppliesOver (.failing fault : Storage σ) k)
    {entry : Entry} (sized : entry.Addressable) :
    (replica.propose k entry.encode).1 = .ok (Outcome.ofFailure fault).encode := by
  obtain ⟨s, applied⟩ := applying.applies entry.encode
  rw [applied, KeyValue.respond, KeyValue.report_failing sized]

theorem AppliesOver.verdict (applying : replica.AppliesOver (.failing fault : Storage σ) k)
    (fits : (Utf8.encode fault.message).Addressable) {entry : Entry} (sized : entry.Addressable) :
    (replica.commit k entry).1 = (Outcome.ofFailure fault).result := by
  rw [commit_fst, applying.response sized]
  exact Outcome.resultOf_encode (Outcome.ofFailure_addressable fits)

theorem AppliesOver.reply_to_write (applying : replica.AppliesOver (.failing fault : Storage σ) k)
    (fits : (Utf8.encode fault.message).Addressable) {entry : Entry} (sized : entry.Addressable)
    {done : Reply} (valid : Request.ofCommand command = .ok request)
    (writes : request.write? = some (entry, done)) (book : AddressBook) :
    (replica.handle book k command).1 = .ofFault fault := by
  rw [handle_of_write valid writes applying.leads, applying.verdict fits sized]
  exact Reply.ofVerdict_ofFailure done fault

theorem AppliesOver.tellsFailure (applying : replica.AppliesOver (.failing fault : Storage σ) k)
    (fits : (Utf8.encode fault.message).Addressable) (sized : command.Addressable)
    (valid : Request.ofCommand command = .ok request) (book : AddressBook) :
    replica.TellsFailure book k command request fault := by
  cases writes : request.write? with
  | none =>
    have reads : request.verb.isWrite = false := Request.write?_eq_none_iff.mp writes
    obtain ⟨key, rfl⟩ : ∃ key, request = .get key := by
      cases request with
      | get key => exact ⟨key, rfl⟩
      | set | del => cases writes
    have reply := applying.reply_to_get valid book
    constructor
    · intro failed
      rw [reply, if_neg failed]
      rfl
    · intro unbound
      rw [reply, if_pos unbound, reads]
      rfl
    · exact fun entry done written => nomatch writes.symm.trans written
  | some write =>
    obtain ⟨entry, done⟩ := write
    have written : request.verb.isWrite = true := by
      rw [← Bool.not_eq_false, ← Request.write?_eq_none_iff, writes]
      exact nofun
    have entrySized := Request.entry_addressable valid writes sized
    have reply := applying.reply_to_write fits entrySized valid writes book
    have verdict := applying.verdict fits entrySized
    constructor
    · exact fun _ => reply
    · intro unbound
      rw [reply, unbound, written]
      rfl
    · intro entry' done' written'
      obtain ⟨rfl, rfl⟩ := Prod.mk.inj (Option.some.inj (writes.symm.trans written'))
      refine ⟨⟨_, applying.response entrySized, ?_⟩, verdict, fun waited => ?_, ?_⟩
      · exact Outcome.decode_encode (Outcome.ofFailure_addressable fits)
      · rw [verdict, Outcome.ofFailure]
        split <;> exact nofun
      · rw [reply]
        rfl

end Replica

/-! ## The log engine applying a store -/

namespace Engine

variable {e : Engine σ} {p : Proposal}

theorem settle_of_settled {machine : StateMachine σ} {index : Nat}
    (settled : e.isSettled index = true) (patience : Nat) :
    e.settle machine index patience = e := by
  cases patience with
  | zero => rfl
  | succ patience => rw [settle, if_pos settled]

/-- A worker that has time for all of the queue comes to the entry behind it. -/
theorem settle_last (storage : Storage σ) (ordered : e.Ordered) (alive : e.working = true)
    {earlier : List Proposal} (queue : e.queue = earlier ++ [p]) {patience : Nat}
    (patient : earlier.length < patience) :
    ∃ s, (e.settle (KeyValue.machine storage) p.index patience).delivery p.index =
      .delivered (.ok (KeyValue.respond storage s p.data).1) := by
  induction patience generalizing e earlier with
  | zero => exact absurd patient (Nat.not_lt_zero _)
  | succ patience ih =>
    have waiting : e.isSettled p.index = false := by
      rw [isSettled, ordered.delivery_queued queue, alive]
      rfl
    have ordered' := ordered.work (KeyValue.machine storage)
    rw [settle, waiting]
    cases earlier with
    | nil =>
      have worked := work_report storage alive queue
      have last : (e.work (KeyValue.machine storage)).applied.getLast? =
          some ⟨p, (KeyValue.report storage e.state p.data).1.encode⟩ := by
        rw [worked]
        exact List.getLast?_concat
      have delivered := ordered'.delivery_applied (List.mem_of_getLast? last)
      have settled : (e.work (KeyValue.machine storage)).isSettled p.index = true := by
        rw [isSettled, delivered]
      rw [if_neg Bool.false_ne_true, settle_of_settled settled]
      exact ⟨e.state, delivered⟩
    | cons first earlier =>
      have worked := work_report storage alive queue
      exact ih ordered' (worked ▸ alive) (congrArg Engine.queue worked)
        (Nat.lt_of_succ_lt_succ patient)

/-- The engine applies what is proposed if the wait is long enough for what was queued before. -/
theorem replica_appliesOver (storage : Storage σ) (ordered : e.Ordered) (opened : e.Open)
    (timeout : Duration) {patience : Nat} (patient : e.queue.length < patience) :
    (replica storage timeout patience).AppliesOver storage e where
  leads := opened.leads
  reads := ⟨e.state, fun _ => rfl⟩
  applies frame := by
    have submitted := submit_of_open opened frame
    have queue := congrArg (·.2.queue) submitted
    have alive := congrArg (·.2.working) submitted
    obtain ⟨s, delivered⟩ := settle_last storage (ordered.submit opened frame)
      (alive.trans opened.working) queue patient
    have called : ((replica storage timeout patience).propose e frame).1 =
        (((e.submit frame).2.settle (KeyValue.machine storage) (e.lastIndex + 1)
          patience).delivery (e.lastIndex + 1)).afterWaiting timeout := by
      simp only [replica, call, submitted]
    exact ⟨s, called.trans (congrArg (Delivery.afterWaiting timeout) delivered)⟩

end Engine

/-- So does a rehearsed log, at each cue to apply. -/
theorem Rehearsed.replica_appliesOver (storage : Storage σ) (timeout : Duration) {r : Rehearsed σ}
    (leads : r.role = .leader) (cue : r.script.headD .apply = .apply) :
    (replica storage timeout).AppliesOver storage r where
  leads := leads
  reads := ⟨r.state, fun _ => rfl⟩
  applies frame := ⟨r.state, by simp only [replica, propose, cue]⟩

/-! ## Reads and writes are told alike -/

/-- A store that fails is told of in the same words on both ways.

Whatever a store says to every call, a leader whose log applies what it is given to that
store answers a read, a put and a delete with one and the same error reply, the words of the
fault; only an unbound key is nothing to a reader and an error to a writer. What the log
brings back for a write is a report that can be read, so that the submitter is told of a
refusal and never of a success or of a wait that ended. The log engine is such a log
after any history, as long as it is led here, takes entries, and has time for those
in its queue. -/
theorem Replica.store_failure_told_alike {fault : Fault} {command : Command} {request : Request}
    (fits : (Utf8.encode fault.message).Addressable) (sized : command.Addressable)
    (valid : Request.ofCommand command = .ok request) (book : AddressBook) :
    (∀ {κ : Type} (replica : Replica κ) (k : κ),
      replica.AppliesOver (.failing fault : Storage σ) k →
      replica.TellsFailure book k command request fault) ∧
    ∀ (id address : String) (state : σ) (history : List Engine.Event) (timeout : Duration)
      (patience : Nat),
      let storage : Storage σ := .failing fault
      let e := ((Engine.Run.start id address state).after (KeyValue.machine storage) history).engine
      e.Open → e.queue.length < patience →
      (Engine.replica storage timeout patience).TellsFailure book e command request fault := by
  refine ⟨fun _ _ applying => applying.tellsFailure fits sized valid book, ?_⟩
  intro id address state history timeout patience storage e opened patient
  have ordered : e.Ordered :=
    Engine.Run.ordered (KeyValue.machine storage) id address state history
  have applying := Engine.replica_appliesOver storage ordered opened timeout patient
  exact applying.tellsFailure fits sized valid book

/-- A store that says that a wait has ended, behind a rehearsed log and behind an engine that has
rubbish in its queue; and a store that knows no key. -/
theorem Replica.store_failure_told_alike_timeout :
    let late := Fault.applyTimeout (.ofMillis 5)
    let put := (Request.set [107] [118]).command
    let delete := (Request.del [107]).command
    let told := Reply.error "ERR apply timed out after 5ms; write outcome is unknown"
    let rehearsed : Rehearsed Unit := .start ()
    let log := Rehearsed.replica (.failing late) (.ofMillis 9)
    let storage : Storage Unit := .failing .keyNotFound
    let e := ((Engine.Run.start "n1" "n1:7001" ()).after (KeyValue.machine storage)
      [.incident (.role .becomeLeader), .submit [1, 2]]).engine
    (log.handle .empty rehearsed put).1 = told ∧
    (∀ waited, (log.commit rehearsed (.put [107] [118])).1 ≠ .error (.applyTimeout waited)) ∧
    ((Engine.replica storage (.ofMillis 9) 2).handle .empty e delete).1 =
      .error "ERR key not found" := by
  intro late put delete told rehearsed log storage e
  have message : late.message = "apply timed out after 5ms; write outcome is unknown" := by
    decide +kernel
  have putValid : Request.ofCommand put = .ok (.set [107] [118]) := by decide +kernel
  have deleteValid : Request.ofCommand delete = .ok (.del [107]) := by decide +kernel
  have applying : log.AppliesOver (.failing late : Storage Unit) rehearsed :=
    Rehearsed.replica_appliesOver _ _ rfl rfl
  have lateFits : (Utf8.encode late.message).Addressable := by decide +kernel
  have unboundFits : (Utf8.encode Fault.keyNotFound.message).Addressable := by decide +kernel
  have timedOut : log.TellsFailure .empty rehearsed put (.set [107] [118]) late :=
    (store_failure_told_alike lateFits (by decide) putValid .empty).1 log rehearsed applying
  have unknown := (store_failure_told_alike unboundFits (by decide) deleteValid .empty).2
    "n1" "n1:7001" () [.incident (.role .becomeLeader), .submit [1, 2]] (.ofMillis 9) 2
    ⟨rfl, rfl, rfl⟩ (by decide)
  have reply := timedOut.alike (by decide)
  rw [message] at reply
  obtain ⟨-, -, never, -⟩ := timedOut.reported _ _ rfl
  exact ⟨reply, never, unknown.unbound rfl⟩

end LogKv
