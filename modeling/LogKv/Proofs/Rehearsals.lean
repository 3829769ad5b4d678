import LogKv.Proofs.LastWords
import LogKv.Proofs.WriteEffects
import LogKv.Replica.Rehearsed

/-! Histories of a node whose log may do anything. The log answers a submission with
whatever it was told to answer, the store keeps and fails what it likes, and between
two commands the role, the leader pointer, the address book and the store may change.
What a history amounts to for the next command is told by its acts alone: the role and
the pointer that were set last, the address that was registered last, and the writes
that were handled while leading. -/
namespace LogKv

theorem AddressBook.find?_register (book : AddressBook) (node address id : String) :
    (book.register node address).find? id = if node = id then some address else book.find? id := by
  -- What is dropped for the node being registered is nothing that the lookup of another one sees.
  have others {entries : List (String × String)} (different : node ≠ id) :
      (entries.filter (·.1 ≠ node)).lookup id = entries.lookup id := by
    induction entries with
    | nil => rfl
    | cons entry entries ih =>
      obtain ⟨key, recorded⟩ := entry
      by_cases own : key = node
      · have skipped : (id == key) = false := by simp [own, Ne.symm different]
        rw [List.filter_cons_of_neg (by simpa using own), ih, List.lookup_cons, skipped]
      · rw [List.filter_cons_of_pos (by simpa using own), List.lookup_cons, List.lookup_cons, ih]
  rw [find?, register, List.lookup_cons]
  by_cases same : node = id
  · simp [same]
  · have skipped : (id == node) = false := by simp [Ne.symm same]
    simp only [skipped, if_neg same, others same, find?]

namespace Rehearsed

variable {σ : Type}

/-- Something that happens to a node, or to the address book that it looks into. -/
inductive Act (σ : Type) where
  | role (role : Role)
  | leader (leader : Option Leader)
  | register (id address : String)
  /-- The log is told what to do after all that it was told before. -/
  | script (cues : List Cue)
  /-- The store is changed past the log. -/
  | store (change : σ → σ)
  | handle (command : Command)

/-- A memory can hold all that is asked for. -/
def Act.Addressable : Act σ → Prop
  | .handle command => command.Addressable
  | _ => True

instance (act : Act σ) : Decidable act.Addressable :=
  match act with
  | .handle command => inferInstanceAs (Decidable command.Addressable)
  | .role _ | .leader _ | .register _ _ | .script _ | .store _ => .isTrue trivial

/-- A node and the address book that it looks into. -/
structure Stage (σ : Type) where
  node : Rehearsed σ
  book : AddressBook

namespace Stage

variable (storage : Storage σ) (timeout : Duration)

/-- The node answers a command. -/
def handle (stage : Stage σ) (command : Command) : Reply × Stage σ :=
  let (reply, node) := (replica storage timeout).handle stage.book stage.node command
  (reply, { stage with node := node })

/-- Lets it happen. -/
def perform (stage : Stage σ) : Act σ → Stage σ
  | .role role => { stage with node.role := role }
  | .leader leader => { stage with node.leader := leader }
  | .register id address => { stage with book := stage.book.register id address }
  | .script cues => { stage with node.script := stage.node.script ++ cues }
  | .store change => { stage with node.state := change stage.node.state }
  | .handle command => (stage.handle storage timeout command).2

/-- The stage after a history. -/
def after (stage : Stage σ) (acts : List (Act σ)) : Stage σ :=
  acts.foldl (perform storage timeout) stage

end Stage

/-! ## What a history amounts to -/

/-- The role after a history: the one that was set last, or else the one before it. -/
def roleAfter : Role → List (Act σ) → Role
  | role, [] => role
  | _, .role next :: acts => roleAfter next acts
  | role, _ :: acts => roleAfter role acts

/-- The leader pointer after a history: the one that was set last, or else the one before it. -/
def leaderAfter : Option Leader → List (Act σ) → Option Leader
  | leader, [] => leader
  | _, .leader next :: acts => leaderAfter next acts
  | leader, _ :: acts => leaderAfter leader acts

/-- The last registration for this node in a history is of this address. -/
def LastRegistered (id address : String) (acts : List (Act σ)) : Prop :=
  LastWord (· = .register id address) (fun act => ∀ other, act ≠ .register id other) acts

/-- The entry that a node in this role submits for a command, and the reply to the command when
the entry takes effect. Nothing is submitted for a command that is not valid, for a read, or by a
node that does not lead. -/
def submission? (role : Role) (command : Command) : Option (Entry × Reply) :=
  if role = .leader then
    match Request.ofCommand command with
    | .ok request => request.write?
    | .error _ => none
  else none

/-- The entries of the commands in a history that were writes handled while leading, in order. -/
def entries : Role → List (Act σ) → List Entry
  | _, [] => []
  | _, .role next :: acts => entries next acts
  | role, .handle command :: acts =>
    ((submission? role command).map Prod.fst).toList ++ entries role acts
  | role, _ :: acts => entries role acts

/-! ## The log -/

/-- What comes back from the log for a submission. -/
def answer (storage : Storage σ) (r : Rehearsed σ) (frame : Bytes) : Delivery :=
  match r.script.headD .apply with
  | .outcome outcome => .delivered (.ok outcome.encode)
  | .raw bytes => .delivered (.ok bytes)
  | .fail fault => .delivered (.error fault)
  | .hang => .owed
  | .drop => .dropped
  | .apply => .delivered (.ok (KeyValue.respond storage r.state frame).1)

/-- A submission takes one cue of the script, and changes nothing else of the node but its store. -/
structure Submitted (frame : Bytes) (r next : Rehearsed σ) : Prop where
  submitted : next.submitted = frame :: r.submitted
  script : next.script = r.script.tail
  role : next.role = r.role
  leader : next.leader = r.leader

variable {stage : Stage σ} {command : Command}

theorem propose_submitted (storage : Storage σ) (timeout : Duration) (r : Rehearsed σ)
    (frame : Bytes) : Submitted frame r (propose storage timeout r frame).2 := by
  unfold propose
  cases r.script.headD .apply <;> exact ⟨rfl, rfl, rfl, rfl⟩

theorem propose_answer (storage : Storage σ) (timeout : Duration) (r : Rehearsed σ)
    (frame : Bytes) :
    (propose storage timeout r frame).1 = (r.answer storage frame).afterWaiting timeout := by
  unfold propose answer
  cases r.script.headD .apply <;> rfl

/-! ## Commands -/

theorem submission?_eq_some_iff {role : Role} {entry : Entry} {done : Reply} :
    submission? role command = some (entry, done) ↔
      role = .leader ∧ ∃ request, Request.ofCommand command = .ok request ∧
        request.write? = some (entry, done) := by
  unfold submission?
  split
  · next leads => cases valid : Request.ofCommand command <;> simp [leads]
  · next other => simp [other]

/-- Only a write to a leader leaves anything behind. -/
theorem handle_unrouted (storage : Storage σ) (timeout : Duration)
    (unrouted : submission? stage.node.role command = none) :
    (stage.handle storage timeout command).2 = stage := by
  rw [Stage.handle]
  cases command.course stage.node.role with
  | refused invalid => rw [Replica.handle_of_invalid invalid]
  | redirected valid other => rw [Replica.handle_of_not_leader valid other]
  | read valid leads => rw [Replica.handle_of_get valid leads]
  | written valid writes leads =>
    rw [submission?_eq_some_iff.mpr ⟨leads, _, valid, writes⟩] at unrouted
    cases unrouted

/-- A write to a leader is one submission, and what comes back for it is the verdict. -/
theorem handle_routed (storage : Storage σ) (timeout : Duration) {entry : Entry} {done : Reply}
    (routed : submission? stage.node.role command = some (entry, done)) :
    stage.handle storage timeout command =
      (.ofVerdict done
          ((stage.node.answer storage entry.encode).afterWaiting timeout >>= Outcome.resultOf),
        { stage with node := (propose storage timeout stage.node entry.encode).2 }) := by
  obtain ⟨leads, request, valid, writes⟩ := submission?_eq_some_iff.mp routed
  rw [Stage.handle, Replica.handle_of_write valid writes leads, Replica.commit_fst,
    Replica.commit_snd, ← propose_answer]
  rfl

theorem handle_keeps (storage : Storage σ) (timeout : Duration) (stage : Stage σ)
    (command : Command) :
    let next := (stage.handle storage timeout command).2
    next.node.role = stage.node.role ∧ next.node.leader = stage.node.leader ∧
      next.book = stage.book := by
  cases routed : submission? stage.node.role command with
  | none => simp only [handle_unrouted storage timeout routed, and_self]
  | some write =>
    obtain ⟨entry, done⟩ := write
    have submitted := propose_submitted storage timeout stage.node entry.encode
    rw [handle_routed storage timeout routed]
    exact ⟨submitted.role, submitted.leader, rfl⟩

/-! ## Histories -/

theorem after_role (storage : Storage σ) (timeout : Duration) (stage : Stage σ)
    (acts : List (Act σ)) :
    (stage.after storage timeout acts).node.role = roleAfter stage.node.role acts := by
  induction acts generalizing stage with
  | nil => rfl
  | cons act acts ih =>
    cases act with
    | handle command =>
      have same := (handle_keeps storage timeout stage command).1
      exact (ih _).trans (congrArg (roleAfter · acts) same)
    | role | leader | register | script | store => exact ih _

theorem after_leader (storage : Storage σ) (timeout : Duration) (stage : Stage σ)
    (acts : List (Act σ)) :
    (stage.after storage timeout acts).node.leader = leaderAfter stage.node.leader acts := by
  induction acts generalizing stage with
  | nil => rfl
  | cons act acts ih =>
    cases act with
    | handle command =>
      have same := (handle_keeps storage timeout stage command).2.1
      exact (ih _).trans (congrArg (leaderAfter · acts) same)
    | role | leader | register | script | store => exact ih _

/-- Nothing is ever submitted but the entries of the writes, each once. -/
theorem after_submitted (storage : Storage σ) (timeout : Duration) (stage : Stage σ)
    (acts : List (Act σ)) :
    (stage.after storage timeout acts).node.submitted =
      ((entries stage.node.role acts).map Entry.encode).reverse ++ stage.node.submitted := by
  induction acts generalizing stage with
  | nil => rfl
  | cons act acts ih =>
    cases act with
    | handle command =>
      -- The entries of the rest depend on the role alone, which no command changes.
      have role := (handle_keeps storage timeout stage command).1
      have later := ih (stage.handle storage timeout command).2
      rw [role] at later
      refine later.trans ?_
      cases routed : submission? stage.node.role command with
      | none => simp [handle_unrouted storage timeout routed, entries, routed]
      | some write =>
        obtain ⟨entry, done⟩ := write
        have submitted := (propose_submitted storage timeout stage.node entry.encode).submitted
        simp [handle_routed storage timeout routed, submitted, entries, routed]
    | role | leader | register | script | store => exact ih _

theorem entries_addressable {role : Role} {acts : List (Act σ)}
    (fits : ∀ act ∈ acts, act.Addressable) : ∀ entry ∈ entries role acts, entry.Addressable := by
  induction acts generalizing role with
  | nil => exact fun _ none => nomatch none
  | cons act acts ih =>
    obtain ⟨now, later⟩ := List.forall_mem_cons.mp fits
    cases act with
    | handle command =>
      intro entry member
      rcases List.mem_append.mp member with here | member
      · obtain ⟨⟨_, done⟩, routed, rfl⟩ := Option.map_eq_some_iff.mp (Option.mem_toList.mp here)
        obtain ⟨-, request, valid, writes⟩ := submission?_eq_some_iff.mp routed
        exact Request.entry_addressable valid writes now
      · exact ih later entry member
    | role | leader | register | script | store => exact ih later

/-! ## Addresses -/

theorem perform_find? (storage : Storage σ) (timeout : Duration) (stage : Stage σ) (act : Act σ)
    (id address : String) :
    (stage.perform storage timeout act).book.find? id = some address ↔
      act = .register id address ∨
        (∀ other, act ≠ .register id other) ∧ stage.book.find? id = some address := by
  cases act with
  | register node recorded =>
    simp only [Stage.perform, AddressBook.find?_register]
    by_cases same : node = id
    · simp [same]
    · simp [same]
  | handle command =>
    have same := (handle_keeps storage timeout stage command).2.2
    simp [Stage.perform, same]
  | role | leader | script | store => simp [Stage.perform]

theorem after_find? (storage : Storage σ) (timeout : Duration) (stage : Stage σ)
    (acts : List (Act σ)) (id address : String) :
    (stage.after storage timeout acts).book.find? id = some address ↔
      LastRegistered id address acts ∨
        (∀ act ∈ acts, ∀ other, act ≠ .register id other) ∧
          stage.book.find? id = some address :=
  foldl_lastWord (fun stage : Stage σ => stage.book.find? id = some address)
    (fun stage act => perform_find? storage timeout stage act id address) stage acts

end Rehearsed

end LogKv
