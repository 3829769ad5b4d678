import LogKv.Proofs.ShownText
import LogKv.Proofs.WriteLog

/-! What a write is answered with. The engine takes a write or refuses it; if it
takes it, the submitter is told what has come back by the end of the wait. Replies
that tell what became of a write cannot be confused with those that leave it open. -/
namespace LogKv

/-- The reply tells what became of a write, which has `done` for a reply when it takes effect. -/
def Reply.Tells (reply done : Reply) : Prop := reply = done ∨ reply = .error "ERR key not found"

/-- The write that a command puts in the log of this engine, if the engine accepts it. -/
def Engine.taken? (e : Engine Store) (command : Command) : Option Entry :=
  match Request.ofCommand command with
  | .error _ => none
  | .ok request =>
    match request.write? with
    | none => none
    | some (entry, _) =>
      match e.submit entry.encode with
      | (.refused _, _) => none
      | (.accepted _, _) => some entry

/-! ## Replies that leave open what became of a write

They differ from those that tell in the first letter of their text. -/

/-- The first letter of a message. -/
def Fault.initial (fault : Fault) : Option Char := fault.message.toList.head?

theorem Fault.initial_addressUnknown (node : String) :
    (addressUnknown node).initial = some 'n' := by
  have head : "no client address recorded for node '".toList.head? = some 'n' := by decide
  exact Text.head?_append (Text.head?_append head node) _

theorem Fault.initial_applyTimeout (waited : Duration) :
    (applyTimeout waited).initial = some 'a' := by
  have head : "apply timed out after ".toList.head? = some 'a' := by decide
  exact Text.head?_append (Text.head?_append head _) _

theorem Fault.initial_replication (text : String) : (replication text).initial = some 'r' := by
  have head : "replication failed: ".toList.head? = some 'r' := by decide
  exact Text.head?_append head text

namespace Reply

theorem ofFault_ne {f g : Fault} (differ : f.initial ≠ g.initial) : ofFault f ≠ ofFault g := by
  intro same
  have text : "ERR " ++ f.message = "ERR " ++ g.message := by
    simpa [ofFault, failure, toString] using same
  have chars := congrArg String.toList text
  rw [String.toList_append, String.toList_append] at chars
  exact differ (congrArg List.head? (List.append_cancel_left chars))

theorem moved_ne_ofFault (address : String) (fault : Fault) : moved address ≠ ofFault fault := by
  intro same
  have text : "MOVED " ++ toString redirectIndex ++ " " ++ address = "ERR " ++ fault.message := by
    simpa [moved, ofFault, failure, toString] using same
  have redirect : "MOVED ".toList.head? = some 'M' := by decide
  have failure : "ERR ".toList.head? = some 'E' := by decide
  have heads := congrArg (fun text => text.toList.head?) text
  rw [Text.head?_append (Text.head?_append (Text.head?_append redirect _) _),
    Text.head?_append failure] at heads
  exact absurd heads (by decide)

/-- A redirect, or a fault of routing or of the log engine. -/
inductive Vague : Reply → Prop where
  | moved (address : String) : Vague (.moved address)
  | leaderUnknown : Vague (.ofFault .leaderUnknown)
  | addressUnknown (node : String) : Vague (.ofFault (.addressUnknown node))
  | replication (text : String) : Vague (.ofFault (.replication text))

theorem Vague.ne_ofFault {reply : Reply} (vague : Vague reply) (fault : Fault)
    (other : fault.initial = some 'k' ∨ fault.initial = some 'a') : reply ≠ .ofFault fault := by
  have differ {c : Char} (far : c ≠ 'k' ∧ c ≠ 'a') : some c ≠ fault.initial := by
    rcases other with same | same <;> rw [same] <;> simp [far]
  cases vague with
  | moved address => exact moved_ne_ofFault address fault
  | leaderUnknown => exact ofFault_ne (differ (c := 'l') (by decide))
  | addressUnknown node =>
    exact ofFault_ne (Fault.initial_addressUnknown node ▸ differ (by decide))
  | replication text => exact ofFault_ne (Fault.initial_replication text ▸ differ (by decide))

theorem Vague.isError {reply : Reply} (vague : Vague reply) : reply.isError = true := by
  cases vague <;> rfl

/-- No reply to a write that took effect is an error, so one that tells can only be the last. -/
theorem Tells.missing {request : Request} {entry : Entry} {done reply : Reply}
    (writes : request.write? = some (entry, done)) (error : reply.isError = true)
    (tells : Tells reply done) : reply = .ofFault .keyNotFound := by
  rcases tells with rfl | missing
  · cases request with
    | get key => simp [Request.write?] at writes
    | set key value =>
      obtain ⟨-, rfl⟩ := Prod.mk.inj (Option.some.inj writes)
      cases error
    | del key =>
      obtain ⟨-, rfl⟩ := Prod.mk.inj (Option.some.inj writes)
      cases error
  · exact missing

theorem Vague.not_tells {reply : Reply} (vague : Vague reply) {request : Request} {entry : Entry}
    {done : Reply} (writes : request.write? = some (entry, done)) : ¬Tells reply done :=
  fun tells => vague.ne_ofFault .keyNotFound (.inl (by decide)) (tells.missing writes vague.isError)

theorem Vague.ne_timeout {reply : Reply} (vague : Vague reply) (waited : Duration) :
    reply ≠ .ofFault (.applyTimeout waited) :=
  vague.ne_ofFault _ (.inr (Fault.initial_applyTimeout waited))

end Reply

theorem Replica.redirect_vague {κ : Type} (replica : Replica κ) (book : AddressBook) (k : κ) :
    (replica.redirect book k).Vague := by
  have sent := replica.redirect_redirection book k
  generalize replica.redirect book k = reply at sent
  cases sent with
  | leaderless => exact .leaderUnknown
  | unrecorded => exact .addressUnknown _
  | recorded => exact .moved _

/-! ## How a command is handled -/

namespace Engine

variable {e : Engine Store} {command : Command} {entry : Entry}

theorem taken?_eq_some_iff : e.taken? command = some entry ↔
    (∃ request done, Request.ofCommand command = .ok request ∧
      request.write? = some (entry, done)) ∧
    e.Open := by
  unfold taken?
  cases checked : Request.ofCommand command with
  | error fault => simp
  | ok request =>
    cases writes : request.write? with
    | none => simp [writes]
    | some write =>
      obtain ⟨entry', done⟩ := write
      rcases submit_cases e entry'.encode with ⟨fault, refused⟩ | opened
      · simp only [writes, refused, reduceCtorEq, false_iff]
        rintro ⟨-, opened⟩
        rw [submit_of_open opened] at refused
        cases refused
      · simp [submit_of_open opened, opened, writes]

theorem Alike.taken? {e' : Engine Store} (alike : Alike e e') (command : Command) :
    e'.taken? command = e.taken? command := by
  ext entry
  rw [taken?_eq_some_iff, taken?_eq_some_iff]
  exact and_congr_right fun _ => ⟨alike.symm.opened, alike.opened⟩

theorem handle_of_not_taken (nothing : e.taken? command = none) (timeout : Duration)
    (meanwhile : List Incident) (book : AddressBook) :
    ∃ reply, (replicaDuring .memory timeout meanwhile).handle book e command = (reply, e) ∧
      ∀ request write, Request.ofCommand command = .ok request → request.write? = some write →
        reply.Vague := by
  cases command.course e.role with
  | refused invalid =>
    refine ⟨_, Replica.handle_of_invalid invalid, fun request write valid _ => ?_⟩
    cases invalid.symm.trans valid
  | redirected valid other =>
    exact ⟨_, Replica.handle_of_not_leader valid other,
      fun _ _ _ _ => Replica.redirect_vague _ book e⟩
  | read valid leads =>
    refine ⟨_, Replica.handle_of_get valid leads, fun request write valid' writes => ?_⟩
    obtain rfl := Except.ok.inj (valid.symm.trans valid')
    cases writes
  | @written request entry done valid writes leads =>
    have shut : e.accepting = false ∨ e.working = false := by
      by_contra opened
      simp only [not_or, Bool.not_eq_false] at opened
      have taken :=
        taken?_eq_some_iff.mpr ⟨⟨request, done, valid, writes⟩, leads, opened.1, opened.2⟩
      rw [nothing] at taken
      cases taken
    refine ⟨.ofFault shutDown, ?_, fun _ _ _ _ => .replication _⟩
    rw [Replica.handle_of_write valid writes leads]
    simp only [Replica.commit, replicaDuring, callDuring, submit_of_shut_down leads shut]
    rfl

/-- A submitter is told what has come back for the write by the end of the wait. -/
theorem handle_of_taken (taken : e.taken? command = some entry) (timeout : Duration)
    (meanwhile : List Incident) (book : AddressBook) :
    ∃ request done, Request.ofCommand command = .ok request ∧
      request.write? = some (entry, done) ∧
      let e' := (e.submit entry.encode).2.afterAll Node.machine meanwhile
      (replicaDuring .memory timeout meanwhile).handle book e command =
        (match (e'.delivery (e.lastIndex + 1)).afterWaiting timeout with
          | .ok raw => .ofVerdict done (Outcome.resultOf raw)
          | .error fault => .ofFault fault, e') := by
  obtain ⟨⟨request, done, valid, writes⟩, opened⟩ := taken?_eq_some_iff.mp taken
  refine ⟨request, done, valid, writes, ?_⟩
  intro e'
  have proposed : (replicaDuring .memory timeout meanwhile).propose e entry.encode =
      ((e'.delivery (e.lastIndex + 1)).afterWaiting timeout, e') := by
    simp only [replicaDuring, callDuring, submit_of_open opened, e', Node.machine]
  rw [Replica.handle_of_write valid writes opened.leads, Replica.commit, proposed]
  cases (e'.delivery (e.lastIndex + 1)).afterWaiting timeout <;> rfl

end Engine

/-- What an accepted write at this index is answered with, and when. -/
inductive Answered (timeout : Duration) (done : Reply) (verdict : Except Fault (Option Bytes))
    (index : Nat) (e : Engine Store) : Reply → Prop where
  | told (applied : index ≤ e.appliedIndex) :
      Answered timeout done verdict index e (.ofVerdict done verdict)
  | late (pending : e.appliedIndex < index) :
      Answered timeout done verdict index e (.ofFault (.applyTimeout timeout))
  | dropped (pending : e.appliedIndex < index) (gone : e.working = false) :
      Answered timeout done verdict index e
        (.ofFault (.replication "entry dropped before it was applied"))

/-- A reply that tells is the verdict, and comes after the write is applied. -/
theorem Answered.applied {timeout : Duration} {done : Reply} {verdict : Except Fault (Option Bytes)}
    {index : Nat} {e : Engine Store} {reply : Reply} {request : Request} {entry : Entry}
    (answered : Answered timeout done verdict index e reply)
    (writes : request.write? = some (entry, done)) (tells : reply.Tells done) :
    index ≤ e.appliedIndex ∧ reply = .ofVerdict done verdict := by
  cases answered with
  | told applied => exact ⟨applied, rfl⟩
  | late pending =>
    have differ : (Fault.applyTimeout timeout).initial ≠ Fault.keyNotFound.initial := by
      rw [Fault.initial_applyTimeout]
      decide
    exact absurd (tells.missing writes rfl) (Reply.ofFault_ne differ)
  | dropped pending gone => exact absurd tells ((Reply.Vague.replication _).not_tells writes)

theorem WriteLog.handle {start : Store} {writes : List Entry} {e : Engine Store} {command : Command}
    {entry : Entry} (log : WriteLog start writes e) (fits : command.Addressable)
    (taken : e.taken? command = some entry) (timeout : Duration) (meanwhile : List Incident)
    (book : AddressBook) :
    ∃ request done reply, Request.ofCommand command = .ok request ∧
      request.write? = some (entry, done) ∧
      let e' := (e.submit entry.encode).2.afterAll Node.machine meanwhile
      (Engine.replicaDuring .memory timeout meanwhile).handle book e command = (reply, e') ∧
      WriteLog start (writes ++ [entry]) e' ∧
      Answered timeout done (entry.outcome (start.after writes)).result (writes.length + 1) e'
        reply := by
  obtain ⟨-, opened⟩ := Engine.taken?_eq_some_iff.mp taken
  obtain ⟨request, done, valid, written, handled⟩ :=
    Engine.handle_of_taken taken timeout meanwhile book
  have longer := (log.submit opened
    (Request.entry_addressable valid written fits)).afterAll meanwhile
  refine ⟨request, done, _, valid, written, handled, longer, ?_⟩
  rw [log.lastIndex]
  rcases longer.delivery rfl with ⟨reached, delivered⟩ | ⟨behind, waiting⟩
  · rw [delivered]
    simp only [Delivery.afterWaiting, Entry.resultOf_outcome]
    exact .told reached
  · rw [waiting]
    cases alive : ((e.submit entry.encode).2.afterAll Node.machine meanwhile).working with
    | true => exact .late (by omega)
    | false => exact .dropped (by omega) alive

end LogKv
