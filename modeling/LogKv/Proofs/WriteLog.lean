import LogKv.Proofs.LogCalls

/-! Logs of writes. The state machine over a store in memory breaks down on no
frame, so nothing but its death keeps the worker from applying every write; what
the store holds, and what comes back for a write, is said here by the writes
alone. -/
namespace LogKv

/-- The store after these writes, in order. -/
def Store.after (s : Store) (writes : List Entry) : Store :=
  writes.foldl (fun s entry => entry.effect s) s

/-- Both engines are equally ready to accept writes. -/
structure Engine.Alike (e e' : Engine Store) : Prop where
  role : e'.role = e.role
  accepting : e'.accepting = e.accepting
  working : e'.working = e.working

theorem Engine.Alike.refl (e : Engine Store) : Alike e e := ⟨rfl, rfl, rfl⟩

theorem Engine.Alike.symm {e e' : Engine Store} (alike : Alike e e') : Alike e' e :=
  ⟨alike.role.symm, alike.accepting.symm, alike.working.symm⟩

theorem Engine.Alike.trans {e e' e'' : Engine Store} (first : Alike e e') (second : Alike e' e'') :
    Alike e e'' :=
  ⟨second.role.trans first.role, second.accepting.trans first.accepting,
    second.working.trans first.working⟩

theorem Engine.Alike.opened {e e' : Engine Store} (alike : Alike e e') (opened : e.Open) :
    e'.Open :=
  ⟨alike.role.trans opened.leads, alike.accepting.trans opened.accepting,
    alike.working.trans opened.working⟩

theorem Engine.submit_alike (data : Bytes) (e : Engine Store) : Alike e (e.submit data).2 := by
  rcases submit_cases e data with ⟨fault, refused⟩ | opened
  · rw [refused]
    exact .refl e
  · rw [submit_of_open opened]
    exact ⟨rfl, rfl, rfl⟩

/-- The log of the engine is made of these writes, in this order. -/
structure WriteLog (start : Store) (writes : List Entry) (e : Engine Store) : Prop where
  record : ∃ accepted, Engine.Recorded Node.machine start accepted e ∧
    accepted.map (·.data) = writes.map Entry.encode
  fits : ∀ entry ∈ writes, entry.Addressable

/-- The engine once a write to an empty queue is applied. -/
def Engine.wrote (entry : Entry) (e : Engine Store) : Engine Store :=
  { e with
    lastIndex := e.lastIndex + 1
    lastTerm := e.term
    queue := []
    deliveries := Proposal.conclude (.resolve (.ok (entry.outcome e.state).encode))
      (e.deliveries ++ [.owed]) ⟨e.lastIndex + 1, e.term, entry.encode⟩
    appliedIndex := e.lastIndex + 1
    applied := e.applied ++
      [⟨⟨e.lastIndex + 1, e.term, entry.encode⟩, (entry.outcome e.state).encode⟩]
    state := entry.effect e.state }

variable {start s : Store} {writes : List Entry} {e : Engine Store}

theorem Engine.work_submit (idle : e.queue = []) (opened : e.Open) {entry : Entry}
    (fits : entry.Addressable) :
    (e.submit entry.encode).2.work Node.machine = e.wrote entry := by
  rw [submit_of_open opened]
  simp only [work, complete, wrote, opened.working, idle, List.nil_append, Node.machine,
    KeyValue.apply_encode fits, if_true]

/-- A replay of frames carries out the writes in them. -/
theorem replays_after {calls : List Applied} (replays : Node.machine.Replays start calls s)
    (frames : calls.map (·.proposal.data) = writes.map Entry.encode)
    (fits : ∀ entry ∈ writes, entry.Addressable) : s = start.after writes := by
  induction replays generalizing writes with
  | nil =>
    obtain rfl : writes = [] := List.map_eq_nil_iff.mp frames.symm
    rfl
  | @snoc calls p response s t before call ih =>
    rw [List.map_append, eq_comm, List.map_eq_append_iff] at frames
    obtain ⟨earlier, last, rfl, frames, final⟩ := frames
    obtain ⟨entry, rfl, frame⟩ : ∃ entry, last = [entry] ∧ entry.encode = p.data := by
      simpa [List.map_eq_singleton_iff] using final
    have state := ih frames.symm fun entry member => fits entry (List.mem_append_left _ member)
    have entryFits : entry.Addressable := fits entry (by simp)
    rw [← frame, Node.machine, KeyValue.apply_encode entryFits] at call
    obtain ⟨-, rfl⟩ := Prod.mk.inj (Option.some.inj call)
    rw [state, Store.after, Store.after, List.foldl_append]
    rfl

namespace WriteLog

theorem of_start (id address : String) (start : Store) :
    WriteLog start [] (.start id address start) :=
  ⟨⟨[], Engine.recorded_start Node.machine id address start, rfl⟩, by simp⟩

theorem incident (log : WriteLog start writes e) (incident : Incident) :
    WriteLog start writes (incident.apply Node.machine e) := by
  obtain ⟨⟨accepted, record, frames⟩, fits⟩ := log
  exact ⟨⟨accepted, record.incident incident, frames⟩, fits⟩

theorem submit (log : WriteLog start writes e) (opened : e.Open) {entry : Entry}
    (fits : entry.Addressable) : WriteLog start (writes ++ [entry]) (e.submit entry.encode).2 := by
  obtain ⟨⟨accepted, record, frames⟩, fits'⟩ := log
  refine ⟨⟨_, record.submit opened entry.encode, ?_⟩, ?_⟩
  · rw [List.map_append, List.map_append, frames]
    rfl
  · intro other member
    rcases List.mem_append.mp member with earlier | last
    · exact fits' other earlier
    · obtain rfl := List.mem_singleton.mp last
      exact fits

theorem afterAll (log : WriteLog start writes e) (incidents : List Incident) :
    WriteLog start writes (e.afterAll Node.machine incidents) := by
  induction incidents generalizing e with
  | nil => exact log
  | cons incident incidents ih => exact ih (log.incident incident)

theorem lastIndex (log : WriteLog start writes e) : e.lastIndex = writes.length := by
  obtain ⟨⟨accepted, record, frames⟩, -⟩ := log
  have length := congrArg List.length frames
  rw [List.length_map, List.length_map] at length
  rw [record.lastIndex, length]

theorem appliedIndex_le (log : WriteLog start writes e) : e.appliedIndex ≤ writes.length := by
  obtain ⟨accepted, record, -⟩ := log.record
  rw [← log.lastIndex]
  exact record.appliedIndex_le

/-- What is applied stays applied, whatever the log has taken since. -/
theorem appliedIndex_mono (log : WriteLog start writes e) {writes' : List Entry}
    {e' : Engine Store} (log' : WriteLog start writes' e') (later : Engine.Later e e') :
    e.appliedIndex ≤ e'.appliedIndex := by
  obtain ⟨accepted, record, -⟩ := log.record
  obtain ⟨accepted', record', -⟩ := log'.record
  rw [record.appliedIndex, record'.appliedIndex]
  exact later.applied.length_le

theorem applied_frames (log : WriteLog start writes e) :
    e.applied.map (·.proposal.data) = (writes.take e.appliedIndex).map Entry.encode := by
  obtain ⟨⟨accepted, record, frames⟩, -⟩ := log
  have applied := congrArg (List.map (·.data)) record.applied_eq
  rwa [List.map_map, List.map_take, frames, ← List.map_take] at applied

theorem queue_frames (log : WriteLog start writes e) :
    e.queue.map (·.data) = (writes.drop e.appliedIndex).map Entry.encode := by
  obtain ⟨⟨accepted, record, frames⟩, -⟩ := log
  rw [record.queue_eq, List.map_drop, frames, List.map_drop]

theorem queue_eq_nil_iff (log : WriteLog start writes e) :
    e.queue = [] ↔ writes.length ≤ e.appliedIndex := by
  obtain ⟨accepted, record, -⟩ := log.record
  rw [record.queue_eq, List.drop_eq_nil_iff, ← record.lastIndex, log.lastIndex]

/-- The store is what the writes that are applied made of it. -/
theorem state_eq (log : WriteLog start writes e) :
    e.state = start.after (writes.take e.appliedIndex) := by
  obtain ⟨accepted, record, -⟩ := log.record
  exact replays_after record.replayed log.applied_frames fun entry member =>
    log.fits entry (List.mem_of_mem_take member)

theorem state_of_idle (log : WriteLog start writes e) (idle : e.queue = []) :
    e.state = start.after writes := by
  rw [log.state_eq, List.take_of_length_le (log.queue_eq_nil_iff.mp idle)]

/-- The next entry in the queue is the frame of the next write. -/
theorem front (log : WriteLog start writes e) {p : Proposal} {rest : List Proposal}
    (queued : e.queue = p :: rest) :
    ∃ entry ∈ writes, p.data = entry.encode ∧ p.index = e.appliedIndex + 1 := by
  have frames := log.queue_frames
  obtain ⟨accepted, record, -⟩ := log.record
  rw [queued, List.map_cons, eq_comm, List.map_eq_cons_iff] at frames
  obtain ⟨entry, later, pending, frame, -⟩ := frames
  refine ⟨entry, List.mem_of_mem_drop (pending ▸ List.mem_cons_self), frame.symm, ?_⟩
  exact record.front_index queued

/-- The state machine gets through every write. -/
theorem responds (log : WriteLog start writes e) {p : Proposal} {rest : List Proposal}
    (queued : e.queue = p :: rest) : Node.machine.apply e.state p.index p.data ≠ none := by
  obtain ⟨entry, member, frame, -⟩ := log.front queued
  rw [frame, Node.machine, KeyValue.apply_encode (log.fits entry member)]
  exact Option.some_ne_none _

/-- A turn of the worker changes nothing about whether writes are accepted. -/
theorem work_alike (log : WriteLog start writes e) : Engine.Alike e (e.work Node.machine) := by
  have turn := Engine.work_turn Node.machine e
  generalize e.work Node.machine = e' at turn
  cases turn with
  | idle stuck => exact .refl e
  | broke alive queued fails => exact absurd fails (log.responds queued)
  | applied alive queued responds => exact ⟨rfl, rfl, rfl⟩

/-- What happens to both of two engines leaves them equally ready, whatever is in their logs. -/
theorem alike_incident (log : WriteLog start writes e) {writes' : List Entry} {e' : Engine Store}
    (log' : WriteLog start writes' e') (alike : Engine.Alike e e') (incident : Incident) :
    Engine.Alike (incident.apply Node.machine e) (incident.apply Node.machine e') := by
  cases incident with
  | role change =>
    cases change with
    | becomeLeader => exact ⟨rfl, alike.accepting, alike.working⟩
    | becomeFollower leader => exact ⟨rfl, alike.accepting, alike.working⟩
    | setRole role => exact ⟨rfl, alike.accepting, alike.working⟩
    | setLeader leader => exact ⟨alike.role, alike.accepting, alike.working⟩
  | work => exact log.work_alike.symm.trans (alike.trans log'.work_alike)
  | close => exact ⟨alike.role, rfl, alike.working⟩
  | loseWorker => exact ⟨alike.role, alike.accepting, rfl⟩

theorem alike_afterAll (log : WriteLog start writes e) {writes' : List Entry} {e' : Engine Store}
    (log' : WriteLog start writes' e') (alike : Engine.Alike e e') (incidents : List Incident) :
    Engine.Alike (e.afterAll Node.machine incidents) (e'.afterAll Node.machine incidents) := by
  induction incidents generalizing e e' with
  | nil => exact alike
  | cons incident incidents ih =>
    exact ih (log.incident incident) (log'.incident incident)
      (log.alike_incident log' alike incident)

/-- A turn of a live worker applies the next write, if there is one. -/
theorem work_appliedIndex (log : WriteLog start writes e) (alive : e.working = true) :
    (e.work Node.machine).appliedIndex = min (e.appliedIndex + 1) writes.length := by
  have bound := log.appliedIndex_le
  have turn := Engine.work_turn Node.machine e
  generalize e.work Node.machine = e' at turn
  cases turn with
  | idle stuck =>
    have idle : e.queue = [] := by simpa [alive] using stuck
    have all := log.queue_eq_nil_iff.mp idle
    omega
  | broke _ queued fails => exact absurd fails (log.responds queued)
  | @applied p rest _ _ _ queued _ =>
    obtain ⟨-, -, -, index⟩ := log.front queued
    have pending : ¬writes.length ≤ e.appliedIndex := by
      rw [← log.queue_eq_nil_iff, queued]
      exact List.cons_ne_nil p rest
    simp only [Engine.complete, index]
    omega

theorem workFor (log : WriteLog start writes e) (turns : Nat) :
    WriteLog start writes (e.workFor Node.machine turns) :=
  Engine.afterAll_turns turns e ▸ log.afterAll (Engine.turns turns)

/-- A live worker that empties the queue carries out every write. -/
theorem drain_state (log : WriteLog start writes e) (alive : e.working = true) :
    (e.drain Node.machine).state = start.after writes := by
  have lives (turns : Nat) {e : Engine Store} (log : WriteLog start writes e)
      (alive : e.working = true) : (e.workFor Node.machine turns).working = true := by
    induction turns generalizing e with
    | zero => exact alive
    | succ turns ih => exact ih (log.incident .work) (log.work_alike.working.trans alive)
  have through : WriteLog start writes (e.drain Node.machine) := log.workFor _
  have idle : (e.drain Node.machine).queue = [] := by
    rcases Engine.workFor_length Node.machine e with dead | idle
    · rw [lives _ log alive] at dead
      cases dead
    · exact idle
  exact through.state_of_idle idle

/-- What comes back for a write is the report on it, once it is applied, and nothing before. -/
theorem delivery (log : WriteLog start writes e) {before after : List Entry} {entry : Entry}
    (here : writes = before ++ entry :: after) :
    (before.length < e.appliedIndex ∧ e.delivery (before.length + 1) =
      .delivered (.ok (entry.outcome (start.after before)).encode)) ∨
    (e.appliedIndex ≤ before.length ∧
      e.delivery (before.length + 1) = if e.working then .owed else .dropped) := by
  obtain ⟨accepted, record, frames⟩ := log.record
  by_cases reached : before.length < e.appliedIndex
  · left
    refine ⟨reached, ?_⟩
    have length := congrArg List.length frames
    simp only [List.length_map, here, List.length_append, List.length_cons] at length
    obtain ⟨p, found⟩ : ∃ p, accepted[before.length]? = some p :=
      ⟨_, List.getElem?_eq_getElem (by omega)⟩
    have index := record.numbered.index_at found
    have frame : p.data = entry.encode := by
      have same := congrArg (·[before.length]?) frames
      simpa [found, here] using same
    obtain ⟨call, member, rfl⟩ := record.applied_of_le (List.mem_of_getElem? found) (by omega)
    obtain ⟨earlier, s, t, replays, taken, responds⟩ := record.responds member
    -- The state machine answered in the state that the writes before this one had left.
    have state : s = start.after before := by
      apply replays_after replays
      · have data := congrArg (List.map (·.data)) taken
        rw [List.map_map, List.map_take, frames, index, here, Nat.add_sub_cancel, List.map_append,
          List.take_left' (List.length_map _)] at data
        exact data
      · exact fun entry member => log.fits entry (here ▸ List.mem_append_left _ member)
    rw [frame, Node.machine, KeyValue.apply_encode (log.fits entry (by simp [here]))] at responds
    obtain ⟨response, -⟩ := Prod.mk.inj (Option.some.inj responds)
    rw [← index, record.ordered.delivery_applied member, ← response, state]
  · right
    have size := congrArg List.length here
    rw [List.length_append, List.length_cons, ← log.lastIndex] at size
    rw [record.appliedIndex] at reached
    refine ⟨record.appliedIndex ▸ Nat.le_of_not_lt reached, ?_⟩
    exact record.ordered.delivery_pending (by omega) (by omega)

/-! ## Submitting to an engine with nothing to do -/

variable {entry : Entry}

theorem wrote (log : WriteLog start writes e) (idle : e.queue = []) (opened : e.Open)
    (fits : entry.Addressable) : WriteLog start (writes ++ [entry]) (e.wrote entry) := by
  have worked := (log.submit opened fits).incident .work
  rwa [Incident.apply, Engine.work_submit idle opened fits] at worked

theorem delivery_wrote (log : WriteLog start writes e) (idle : e.queue = []) (opened : e.Open)
    (fits : entry.Addressable) :
    (e.wrote entry).delivery (e.lastIndex + 1) =
      .delivered (.ok (entry.outcome e.state).encode) := by
  rw [log.lastIndex, log.state_of_idle idle]
  rcases (log.wrote idle opened fits).delivery rfl with ⟨-, delivered⟩ | ⟨behind, -⟩
  · exact delivered
  · have reached : (e.wrote entry).appliedIndex = writes.length + 1 :=
      congrArg (· + 1) log.lastIndex
    omega

theorem delivery_submit (log : WriteLog start writes e) (opened : e.Open)
    (fits : entry.Addressable) :
    (e.submit entry.encode).2.delivery (e.lastIndex + 1) = .owed := by
  have behind : (e.submit entry.encode).2.appliedIndex = e.appliedIndex ∧
      (e.submit entry.encode).2.working = true := by
    rw [Engine.submit_of_open opened]
    exact ⟨rfl, opened.working⟩
  have bound := log.appliedIndex_le
  rw [log.lastIndex]
  rcases (log.submit opened fits).delivery rfl with ⟨reached, -⟩ | ⟨-, waiting⟩
  · omega
  · rw [waiting, behind.2]
    rfl

/-- A write to an empty queue is applied on the first turn of the worker, or its wait ends first. -/
theorem call_idle (log : WriteLog start writes e) (idle : e.queue = []) (opened : e.Open)
    (fits : entry.Addressable) (timeout : Duration) (n : Nat) :
    (e.callDuring Node.machine timeout (Engine.turns n) entry.encode).1 =
      .error (.applyTimeout timeout) ∨
    e.callDuring Node.machine timeout (Engine.turns n) entry.encode =
      (.ok (entry.outcome e.state).encode, e.wrote entry) := by
  rw [Engine.callDuring_of_open opened]
  cases n with
  | zero =>
    left
    rw [Engine.workFor, log.delivery_submit opened fits]
    rfl
  | succ n =>
    right
    rw [Engine.workFor, Engine.work_submit idle opened fits, Engine.workFor_of_stuck (.inr rfl),
      log.delivery_wrote idle opened fits]
    rfl

end WriteLog

/-- A free worker with nothing else to do applies a write after the commit delay. -/
theorem Clocked.call_in_time {c : Clocked Store} {entry : Entry}
    (log : WriteLog start writes c.engine) (idle : c.engine.queue = []) (opened : c.engine.Open)
    (fits : entry.Addressable) (free : c.held = false) {timeout : Nat} (soon : c.delay < timeout) :
    ∃ now due, c.call Node.machine timeout entry.encode =
      (.ok (entry.outcome c.engine.state).encode,
        { c with engine := c.engine.wrote entry, now := now, due := due }) := by
  let queued : Clocked Store :=
    { c with engine := (c.engine.submit entry.encode).2, due := c.now + c.delay }
  have applied := Engine.work_submit idle opened fits
  have response := log.delivery_wrote idle opened fits
  have next : queued.next? = some (c.now + c.delay) := by
    simp only [queued, next?, Engine.submit_of_open opened]
    simp [free, opened.working]
  have settled : (c.engine.wrote entry).isSettled (c.engine.lastIndex + 1) = true := by
    rw [Engine.isSettled, response]
  have unsettled : queued.engine.isSettled (c.engine.lastIndex + 1) = false := by
    rw [Engine.isSettled, log.delivery_submit opened fits]
  have worked : queued.work Node.machine =
      { c with
        engine := c.engine.wrote entry
        now := max c.now (c.now + c.delay)
        due := max c.now (c.now + c.delay) + c.delay } := by
    simp only [work, queued, applied]
  have submitted : c.submit Node.machine timeout entry.encode =
      (.entry (c.engine.lastIndex + 1) timeout (c.now + timeout),
        catchUpFor Node.machine 1 queued) := by
    simp only [submit, queued, Engine.submit_of_open opened, catchUp, idle]
    rfl
  refine ⟨max c.now (c.now + c.delay), max c.now (c.now + c.delay) + c.delay, ?_⟩
  rw [call, submitted]
  -- Without a delay the write is applied on submission, otherwise while waiting.
  by_cases atOnce : c.now + c.delay ≤ c.now
  · have caughtUp : catchUpFor Node.machine 1 queued = queued.work Node.machine := by
      simp only [catchUpFor, next, atOnce, queued, if_true]
    rw [caughtUp, worked]
    simp only [wait, waitFor, settled, if_true, response, Delivery.afterWaiting]
  · have caughtUp : catchUpFor Node.machine 1 queued = queued := by
      simp only [catchUpFor, next]
      exact if_neg atOnce
    have length : queued.engine.queue.length = 1 := by
      simp only [queued, Engine.submit_of_open opened, idle]
      rfl
    have inTime : c.now + c.delay < c.now + timeout := Nat.add_lt_add_left soon _
    rw [caughtUp]
    simp only [wait, length, waitFor, unsettled, next, inTime, worked, settled, if_true, response,
      Delivery.afterWaiting, Bool.false_eq_true, if_false]

end LogKv
