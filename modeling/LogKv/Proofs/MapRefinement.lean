import LogKv.Proofs.WriteLog

/-! A node is a map. As long as every write is answered before its wait ends,
commands and changes of role have the replies and the effects that they have on
a plain map with a role, whatever the commands are. The map knows nothing of
frames, logs or clocks; `Shows` relates a node to it and is kept by every move. -/
namespace LogKv

/-- Something done to a node. The address book is the one of that moment. -/
inductive Move where
  | role (change : RoleChange)
  | delay (delay : Nat)
  | handle (book : AddressBook) (command : Command)

/-- A memory can hold all that is asked for. -/
def Move.Addressable : Move → Prop
  | .handle _ command => command.Addressable
  | _ => True

instance : DecidablePred Move.Addressable
  | .role _ | .delay _ => .isTrue trivial
  | .handle _ command => inferInstanceAs (Decidable command.Addressable)

/-- No commit delay is set that is as long as this wait. -/
def Move.Soon (timeout : Nat) : Move → Prop
  | .delay millis => millis < timeout
  | _ => True

instance (timeout : Nat) : DecidablePred (Move.Soon timeout)
  | .role _ | .handle _ _ => .isTrue trivial
  | .delay millis => inferInstanceAs (Decidable (millis < timeout))

/-- The replies to a list of moves, and the state after them. -/
def runMoves {κ : Type} (step : κ → Move → List Reply × κ) : κ → List Move → List Reply × κ
  | k, [] => ([], k)
  | k, move :: rest =>
    let (replies, k) := step k move
    let (later, k) := runMoves step k rest
    (replies ++ later, k)

/-! ## The map -/

/-- What a node amounts to for its clients. -/
structure Reference where
  map : Bytes → Option Bytes
  role : Role
  leader : Option Leader
  /-- The writes handled while leading, oldest first. -/
  writes : List Entry

namespace Reference

/-- Makes a change of role, on the node that this pointer names. -/
def change (own : Leader) (r : Reference) : RoleChange → Reference
  | .becomeLeader => { r with role := .leader, leader := some own }
  | .becomeFollower leader => { r with role := .follower, leader := leader }
  | .setRole role => { r with role := role }
  | .setLeader leader => { r with leader := leader }

/-- Where a node that does not lead sends its clients. -/
def route (book : AddressBook) (r : Reference) : Reply :=
  match r.leader with
  | none => .ofFault .leaderUnknown
  | some leader =>
    match book.find? leader.id with
    | some address => .moved address
    | none => .ofFault (.addressUnknown leader.id)

/-- Answers a request to a leader. -/
def serve (r : Reference) : Request → Reply × Reference
  | .get key =>
    match r.map key with
    | some value => (.value value, r)
    | none => (.null, r)
  | .set key value =>
    (.ok,
      { r with
        map := fun k => if key = k then some value else r.map k
        writes := r.writes ++ [.put key value] })
  | .del key =>
    match r.map key with
    | some _ =>
      (.integer 1,
        { r with
          map := fun k => if key = k then none else r.map k
          writes := r.writes ++ [.delete key] })
    | none => (.error "ERR key not found", { r with writes := r.writes ++ [.delete key] })

/-- Answers a command. -/
def answer (book : AddressBook) (r : Reference) (command : Command) : Reply × Reference :=
  match Request.ofCommand command with
  | .error fault => (.ofFault fault, r)
  | .ok request => if r.role = .leader then r.serve request else (r.route book, r)

/-- Makes a move. -/
def step (own : Leader) (r : Reference) : Move → List Reply × Reference
  | .role change => ([], r.change own change)
  | .delay _ => ([], r)
  | .handle book command =>
    let (reply, r) := r.answer book command
    ([reply], r)

/-- A follower of nobody with these bindings. -/
def holding (store : Store) : Reference := ⟨store.get?, .follower, none, []⟩

end Reference

/-! ## The node -/

/-- The wait for the write of this command ends before the write is applied. -/
def Replica.Expires {κ : Type} (replica : Replica κ) (k : κ) (command : Command) : Prop :=
  ∃ request entry done waited, Request.ofCommand command = .ok request ∧
    request.write? = some (entry, done) ∧ replica.role k = .leader ∧
    (replica.propose k entry.encode).1 = .error (.applyTimeout waited)

namespace Node

/-- A new node with these settings and bindings. -/
def holding (config : Config) (store : Store) : Node :=
  ⟨config, .start config.nodeId config.peerAddress store⟩

/-- Makes a move. -/
def step (node : Node) : Move → List Reply × Node
  | .role change => ([], node.adjust change.apply)
  | .delay delay => ([], { node with log := node.log.setDelay delay })
  | .handle book command =>
    let (reply, node) := node.handle book command
    ([reply], node)

/-- No wait ends before its write is applied, in any of these moves. -/
def Punctual : Node → List Move → Prop
  | _, [] => True
  | node, move :: rest =>
    (∀ book command, move = .handle book command → ¬node.replica.Expires node.log command) ∧
      Punctual (node.step move).2 rest

/-- The node's store, role and log are those that the map tells of, nothing is
under way, and the worker is there. -/
structure Shows (store : Store) (own : Leader) (node : Node) (r : Reference) : Prop where
  log : WriteLog store r.writes node.log.engine
  idle : node.log.engine.queue = []
  accepting : node.log.engine.accepting = true
  working : node.log.engine.working = true
  named : node.log.engine.self = own
  role : node.log.engine.role = r.role
  leader : node.log.engine.leader = r.leader
  map : ∀ key, node.store.get? key = r.map key

end Node

/-! ## Each move keeps the node and the map together -/

/-- The map does what the entry of a write does to a store with the same bindings, and
its reply is the verdict on that entry. -/
theorem Reference.serve_write {r : Reference} {s : Store} {request : Request} {entry : Entry}
    {done : Reply} (writes : request.write? = some (entry, done))
    (same : ∀ key, s.get? key = r.map key) :
    (r.serve request).1 = .ofVerdict done (entry.outcome s).result ∧
    (r.serve request).2.role = r.role ∧ (r.serve request).2.leader = r.leader ∧
    (r.serve request).2.writes = r.writes ++ [entry] ∧
    ∀ key, (entry.effect s).get? key = (r.serve request).2.map key := by
  cases request with
  | get key => simp [Request.write?] at writes
  | set key value =>
    obtain ⟨rfl, rfl⟩ := Prod.mk.inj (Option.some.inj writes)
    refine ⟨rfl, rfl, rfl, rfl, fun k => ?_⟩
    simp only [Entry.effect, Store.get?_put, serve, same]
  | del key =>
    obtain ⟨rfl, rfl⟩ := Prod.mk.inj (Option.some.inj writes)
    cases bound : r.map key with
    | none =>
      -- Deleting an unbound key is an entry of the log all the same, with no effect.
      have unbound : s.get? key = none := (same key).trans bound
      refine ⟨?_, ?_, ?_, ?_, fun k => ?_⟩ <;> simp only [serve, bound]
      · simp only [Entry.outcome, unbound]
        rfl
      · rw [Entry.effect, Store.erase_of_unbound unbound]
        exact same k
    | some value =>
      have present : s.get? key = some value := (same key).trans bound
      refine ⟨?_, ?_, ?_, ?_, fun k => ?_⟩ <;> simp only [serve, bound]
      · simp only [Entry.outcome, present]
        rfl
      · simp only [Entry.effect, Store.get?_erase, same]

namespace Node

variable {store : Store} {own : Leader} {node : Node} {r : Reference} {book : AddressBook}
  {command : Command}

theorem Shows.opened (shows : Shows store own node r) (leads : r.role = .leader) :
    node.log.engine.Open :=
  ⟨shows.role.trans leads, shows.accepting, shows.working⟩

theorem Shows.role_move (shows : Shows store own node r) (change : RoleChange) :
    Shows store own (node.adjust change.apply) (r.change own change) := by
  obtain ⟨log, idle, accepting, working, named, role, leader, map⟩ := shows
  have kept := log.incident (.role change)
  cases change with
  | becomeLeader => exact ⟨kept, idle, accepting, working, named, rfl, congrArg some named, map⟩
  | becomeFollower other => exact ⟨kept, idle, accepting, working, named, rfl, rfl, map⟩
  | setRole other => exact ⟨kept, idle, accepting, working, named, rfl, leader, map⟩
  | setLeader other => exact ⟨kept, idle, accepting, working, named, role, rfl, map⟩

theorem Shows.redirect_eq (shows : Shows store own node r) :
    node.replica.redirect book node.log = r.route book := by
  have pointer : node.replica.leader node.log = r.leader := shows.leader
  rw [Replica.redirect, Replica.leaderAddress, pointer, Reference.route]
  cases r.leader with
  | none => rfl
  | some leader =>
    simp only [AddressBook.address]
    cases book.find? leader.id <;> rfl

theorem Shows.readReply_eq (shows : Shows store own node r) (key : Bytes) :
    (node.replica.readReply node.log key, r) = r.serve (.get key) := by
  have value : node.log.engine.state.get? key = r.map key := shows.map key
  simp only [Replica.readReply, replica, Clocked.replica, Storage.memory, value, Reference.serve]
  cases r.map key <;> rfl

/-- A write that is answered in time is applied to the store and gets its verdict. -/
theorem Shows.commit_eq (shows : Shows store own node r) (leads : r.role = .leader)
    {entry : Entry} (fits : entry.Addressable)
    (punctual : ∀ waited,
      (node.replica.propose node.log entry.encode).1 ≠ .error (.applyTimeout waited)) :
    ∃ log, node.replica.commit node.log entry = ((entry.outcome node.store).result, log) ∧
      log.engine = node.log.engine.wrote entry := by
  obtain ⟨n, called⟩ :=
    Clocked.call_turns machine node.config.applyTimeout entry.encode node.log
  have outcome := shows.log.call_idle shows.idle (shows.opened leads) fits
    (.ofMillis node.config.applyTimeout) n
  rw [called] at outcome
  rcases outcome with expired | applied
  · exact absurd expired (punctual _)
  · obtain ⟨answer, engine⟩ := Prod.mk.inj applied
    refine ⟨(node.log.call machine node.config.applyTimeout entry.encode).2, ?_, engine⟩
    have proposed : node.replica.propose node.log entry.encode =
        (.ok (entry.outcome node.store).encode,
          (node.log.call machine node.config.applyTimeout entry.encode).2) :=
      Prod.ext answer rfl
    rw [Replica.commit, proposed]
    simp only [Entry.resultOf_outcome]

/-- The state of a node after a write that was answered in time. -/
theorem Shows.wrote (shows : Shows store own node r) {r' : Reference} {entry : Entry}
    {log : Clocked Store} (fits : entry.Addressable) (leads : r.role = .leader)
    (engine : log.engine = node.log.engine.wrote entry)
    (role : r'.role = r.role) (leader : r'.leader = r.leader)
    (writes : r'.writes = r.writes ++ [entry])
    (map : ∀ key, (entry.effect node.store).get? key = r'.map key) :
    Shows store own { node with log := log } r' := by
  have log' := shows.log.wrote shows.idle (shows.opened leads) fits
  exact {
    log := by rw [engine, writes]; exact log'
    idle := by rw [engine]; rfl
    accepting := by rw [engine]; exact shows.accepting
    working := by rw [engine]; exact shows.working
    named := by rw [engine]; exact shows.named
    role := by rw [engine, role]; exact shows.role
    leader := by rw [engine, leader]; exact shows.leader
    map := by
      intro key
      rw [← map key]
      show log.engine.state.get? key = _
      rw [engine]
      rfl }

theorem Shows.handle_move (shows : Shows store own node r) (book : AddressBook)
    (fits : command.Addressable)
    (punctual : ¬node.replica.Expires node.log command) :
    (node.handle book command).1 = (r.answer book command).1 ∧
    Shows store own (node.handle book command).2 (r.answer book command).2 := by
  have role : node.replica.role node.log = r.role := shows.role
  have handled : node.handle book command =
      ((node.replica.handle book node.log command).1,
        { node with log := (node.replica.handle book node.log command).2 }) := rfl
  rw [handled]
  cases command.course r.role with
  | refused invalid =>
    rw [Replica.handle_of_invalid invalid]
    simp only [Reference.answer, invalid]
    exact ⟨trivial, shows⟩
  | redirected valid other =>
    rw [Replica.handle_of_not_leader valid (role.symm ▸ other), shows.redirect_eq]
    simp only [Reference.answer, valid, if_neg other]
    exact ⟨trivial, shows⟩
  | @read key valid leads =>
    rw [Replica.handle_of_get valid (role.trans leads)]
    simp only [Reference.answer, valid, if_pos leads, ← shows.readReply_eq key]
    exact ⟨trivial, shows⟩
  | @written request entry done valid writes leads =>
    have entryFits := Request.entry_addressable valid writes fits
    obtain ⟨log, committed, engine⟩ := shows.commit_eq leads entryFits fun waited expired =>
      punctual ⟨request, entry, done, waited, valid, writes, role.trans leads, expired⟩
    obtain ⟨reply, sameRole, sameLeader, written, map⟩ := Reference.serve_write writes shows.map
    rw [Replica.handle_of_write valid writes (role.trans leads), committed]
    simp only [Reference.answer, valid, if_pos leads]
    exact ⟨reply.symm, shows.wrote entryFits leads engine sameRole sameLeader written map⟩

theorem Shows.step (shows : Shows store own node r) {move : Move} (fits : move.Addressable)
    (punctual : ∀ book command, move = .handle book command →
      ¬node.replica.Expires node.log command) :
    (node.step move).1 = (r.step own move).1 ∧
    Shows store own (node.step move).2 (r.step own move).2 := by
  cases move with
  | role change => exact ⟨rfl, shows.role_move change⟩
  | delay delay =>
    exact ⟨rfl, shows.log, shows.idle, shows.accepting, shows.working, shows.named, shows.role,
      shows.leader, shows.map⟩
  | handle book command =>
    obtain ⟨reply, shows'⟩ :=
      shows.handle_move book fits (punctual book command rfl)
    exact ⟨congrArg (fun reply => [reply]) reply, shows'⟩

theorem Shows.run (shows : Shows store own node r) {moves : List Move}
    (fits : ∀ move ∈ moves, move.Addressable)
    (punctual : node.Punctual moves) :
    (runMoves Node.step node moves).1 = (runMoves (Reference.step own) r moves).1 ∧
    Shows store own (runMoves Node.step node moves).2
      (runMoves (Reference.step own) r moves).2 := by
  induction moves generalizing node r with
  | nil => exact ⟨rfl, shows⟩
  | cons move rest ih =>
    obtain ⟨punctualNow, punctualLater⟩ := punctual
    obtain ⟨fitsNow, fitsLater⟩ := List.forall_mem_cons.mp fits
    obtain ⟨replies, shows'⟩ := shows.step fitsNow punctualNow
    obtain ⟨replies', shows''⟩ := ih shows' fitsLater punctualLater
    refine ⟨?_, shows''⟩
    simp only [runMoves]
    rw [replies, replies']

theorem shows_holding (config : Config) (store : Store) :
    Shows store ⟨config.nodeId, config.peerAddress⟩ (holding config store) (.holding store) where
  log := .of_start config.nodeId config.peerAddress store
  idle := rfl
  accepting := rfl
  working := rfl
  named := rfl
  role := rfl
  leader := rfl
  map _ := rfl

/-- Commands that are not writes to a leader leave all of the node as it is. -/
theorem handle_unchanged (node : Node) (book : AddressBook) (command : Command)
    (unwritten : ∀ request, Request.ofCommand command = .ok request →
      node.log.engine.role = .leader → request.verb.isWrite = false) :
    (node.handle book command).2 = node := by
  have handled : (node.handle book command).2 =
      { node with log := (node.replica.handle book node.log command).2 } := rfl
  rw [handled]
  cases command.course node.log.engine.role with
  | refused invalid => rw [Replica.handle_of_invalid invalid]
  | redirected valid other => rw [Replica.handle_of_not_leader valid other]
  | read valid leads => rw [Replica.handle_of_get valid leads]
  | @written request _ _ valid writes leads =>
    rw [Request.write?_eq_none_iff.mpr (unwritten request valid leads)] at writes
    cases writes

/-! ## Nodes that are never late

A worker that is not held and whose commit delay is shorter than the wait applies
every write in time. -/

/-- Nothing keeps the worker from applying a write before its wait ends. -/
def Prompt (node : Node) : Prop :=
  node.log.held = false ∧ node.log.delay < node.config.applyTimeout

theorem Shows.handle_prompt (shows : Shows store own node r) (prompt : node.Prompt)
    (book : AddressBook) (fits : command.Addressable) :
    ¬node.replica.Expires node.log command ∧ (node.handle book command).2.Prompt ∧
    (node.handle book command).2.config = node.config := by
  have inTime {request : Request} {entry : Entry} {done : Reply}
      (valid : Request.ofCommand command = .ok request)
      (writes : request.write? = some (entry, done)) (leads : node.log.engine.role = .leader) :=
    Clocked.call_in_time shows.log shows.idle ⟨leads, shows.accepting, shows.working⟩
      (Request.entry_addressable valid writes fits) prompt.1 prompt.2
  refine ⟨?_, ?_, rfl⟩
  · rintro ⟨request, entry, done, waited, valid, writes, leads, expired⟩
    obtain ⟨now, due, called⟩ := inTime valid writes leads
    have answered : (node.replica.propose node.log entry.encode).1 =
        .ok (entry.outcome node.log.engine.state).encode := congrArg Prod.fst called
    rw [answered] at expired
    cases expired
  · have handled : (node.handle book command).2 =
        { node with log := (node.replica.handle book node.log command).2 } := rfl
    rw [handled]
    cases command.course node.log.engine.role with
    | refused invalid =>
      rw [Replica.handle_of_invalid invalid]
      exact prompt
    | redirected valid other =>
      rw [Replica.handle_of_not_leader valid other]
      exact prompt
    | read valid leads =>
      rw [Replica.handle_of_get valid leads]
      exact prompt
    | @written request entry done valid writes leads =>
      obtain ⟨now, due, called⟩ := inTime valid writes leads
      have proposed : (node.replica.propose node.log entry.encode).2 =
          { node.log with engine := node.log.engine.wrote entry, now := now, due := due } :=
        congrArg Prod.snd called
      rw [Replica.handle_of_write valid writes leads, Replica.commit_snd, proposed]
      exact prompt

/-- If nothing makes the worker late, no wait ends before its write is applied. -/
theorem Shows.punctual (shows : Shows store own node r) (prompt : node.Prompt) {moves : List Move}
    (fits : ∀ move ∈ moves, move.Addressable)
    (soon : ∀ move ∈ moves, move.Soon node.config.applyTimeout) : node.Punctual moves := by
  induction moves generalizing node r with
  | nil => trivial
  | cons move rest ih =>
    obtain ⟨fitsNow, fitsLater⟩ := List.forall_mem_cons.mp fits
    obtain ⟨soonNow, soonLater⟩ := List.forall_mem_cons.mp soon
    have now : ∀ book command, move = .handle book command →
        ¬node.replica.Expires node.log command := by
      rintro book command rfl
      exact (shows.handle_prompt prompt book fitsNow).1
    obtain ⟨-, shows'⟩ := shows.step fitsNow now
    have prompt' : (node.step move).2.Prompt ∧ (node.step move).2.config = node.config := by
      cases move with
      | role change => exact ⟨prompt, rfl⟩
      | delay delay => exact ⟨⟨prompt.1, soonNow⟩, rfl⟩
      | handle book command => exact (shows.handle_prompt prompt book fitsNow).2
    exact ⟨now, ih shows' prompt'.1 fitsLater (prompt'.2 ▸ soonLater)⟩

/-! ## Whole runs -/

/-- A node and a map with the same bindings cannot be told apart.

Whatever the commands and the changes of role are, as long as no wait ends before
its write is applied, the replies are those of the map and so are the bindings,
the role and the leader pointer in the end. The log has taken exactly the writes
that were handled while leading, each is applied, and nothing else was. Any other
command leaves all of a node as it is, in whatever state the node may be. -/
theorem refines_map (config : Config) (store : Store) (moves : List Move)
    (fits : ∀ move ∈ moves, move.Addressable)
    (punctual : (holding config store).Punctual moves) :
    let (replies, node) := runMoves step (holding config store) moves
    let (answers, map) :=
      runMoves (Reference.step ⟨config.nodeId, config.peerAddress⟩) (.holding store) moves
    replies = answers ∧
    (∀ key, node.store.get? key = map.map key) ∧
    node.log.engine.role = map.role ∧
    node.log.engine.leader = map.leader ∧
    node.log.engine.queue = [] ∧
    node.log.engine.applied.map (·.proposal.data) = map.writes.map Entry.encode ∧
    node.log.engine.lastIndex = map.writes.length ∧
    node.log.engine.appliedIndex = map.writes.length ∧
    ∀ (node : Node) (book : AddressBook) (command : Command),
      (∀ request, Request.ofCommand command = .ok request → node.log.engine.role = .leader →
        request.verb.isWrite = false) →
      (node.handle book command).2 = node := by
  obtain ⟨replies, shows⟩ := (shows_holding config store).run fits punctual
  have all := shows.log.queue_eq_nil_iff.mp shows.idle
  have frames := shows.log.applied_frames
  rw [List.take_of_length_le all] at frames
  exact ⟨replies, shows.map, shows.role, shows.leader, shows.idle, frames, shows.log.lastIndex,
    Nat.le_antisymm shows.log.appliedIndex_le all, handle_unchanged⟩

/-- The moves of a session: a write, reads, a failing and a successful deletion, a command
without operands, and a read after the node stepped down. -/
theorem refines_map_session :
    let config : Config := {}
    let book : AddressBook := ⟨[("node-2", "10.0.0.2:6379")]⟩
    let moves : List Move :=
      [.role .becomeLeader, .handle book (Request.set [107] [0, 255]).command,
        .handle book (Request.get [107]).command, .handle book (Request.del [108]).command,
        .delay 7, .handle book (Request.del [107]).command, .handle book ⟨[[83, 69, 84]]⟩,
        .handle book (Request.get [107]).command,
        .role (.becomeFollower (some ⟨"node-2", "10.0.0.2:7379"⟩)),
        .handle book (Request.get [107]).command]
    (∀ move ∈ moves, move.Addressable) ∧ (holding config .empty).Punctual moves ∧
    (runMoves step (holding config .empty) moves).1 =
      [.ok, .value [0, 255], .error "ERR key not found", .integer 1,
        .error "ERR wrong number of arguments for 'SET' command", .null,
        .error "MOVED -1 10.0.0.2:6379"] := by
  intro config book moves
  have fits : ∀ move ∈ moves, move.Addressable := by decide +kernel
  have soon : ∀ move ∈ moves, move.Soon config.applyTimeout := by decide +kernel
  have punctual := (shows_holding config .empty).punctual ⟨rfl, by decide⟩ fits soon
  obtain ⟨replies, -⟩ := refines_map config .empty moves fits punctual
  exact ⟨fits, punctual, replies.trans (by decide +kernel)⟩

end Node

end LogKv
