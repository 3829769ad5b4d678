import LogKv.Proofs.WriteReplies

/-! Writes under delays. Commands are handled one at a time, but the worker takes
its turns whenever it likes, and a wait may end before its write is applied. A
history keeps the replies together with the writes that the log took. At every
moment the store is what the applied ones make of it, and no reply tells what
became of a write before that write and all those before it are applied. -/
namespace LogKv

/-- A command that was handled. -/
structure Handled where
  command : Command
  reply : Reply
  /-- The write that the log accepted for it, if it did. -/
  taken : Option Entry

/-- An engine and the commands that it has handled. -/
structure History where
  engine : Engine Store
  /-- Oldest first. -/
  handled : List Handled

namespace History

/-- Something that happens to a node or is asked of it. -/
inductive Event where
  | incident (incident : Incident)
  /-- A command is handled. If it waits for a write, all this happens meanwhile. -/
  | handle (book : AddressBook) (command : Command) (meanwhile : List Incident)
  deriving DecidableEq, Repr

/-- A memory can hold all that is asked for. -/
def Event.Addressable : Event → Prop
  | .incident _ => True
  | .handle _ command _ => command.Addressable

instance : DecidablePred Event.Addressable
  | .incident _ => .isTrue trivial
  | .handle _ command _ => inferInstanceAs (Decidable command.Addressable)

/-- The same event, with a worker that applies a write as soon as it is accepted. -/
def Event.prompt : Event → Event
  | .incident event => .incident event
  | .handle book command meanwhile => .handle book command (.work :: meanwhile)

/-- The history of a new engine over this store. -/
def start (id address : String) (store : Store) : History := ⟨.start id address store, []⟩

/-- One more event. -/
def step (timeout : Duration) (h : History) : Event → History
  | .incident incident => { h with engine := incident.apply Node.machine h.engine }
  | .handle book command meanwhile =>
    let (reply, engine) :=
      (Engine.replicaDuring .memory timeout meanwhile).handle book h.engine command
    ⟨engine, h.handled ++ [⟨command, reply, h.engine.taken? command⟩]⟩

/-- The history after these events. -/
def after (timeout : Duration) (h : History) (events : List Event) : History :=
  events.foldl (step timeout) h

/-- The writes that the log has accepted, oldest first. -/
def writes (h : History) : List Entry := h.handled.filterMap (·.taken)

variable {timeout : Duration} {store : Store} {h : History}

/-! ## What every event keeps -/

/-- The reply to a write tells the truth, and only of a write that the log took and applied. One
that has waited in vain is a write that the log took. -/
def Honest (timeout : Duration) (store : Store) (before : List Entry) (handled : Handled)
    (appliedIndex : Nat) : Prop :=
  ∀ request entry done, Request.ofCommand handled.command = .ok request →
    request.write? = some (entry, done) →
    (handled.reply.Tells done → handled.taken = some entry ∧ before.length < appliedIndex ∧
      handled.reply = .ofVerdict done (entry.outcome (store.after before)).result) ∧
    (handled.reply = .ofFault (.applyTimeout timeout) → handled.taken = some entry)

/-- The log is made of the writes it took, and no reply was dishonest. -/
structure Sound (timeout : Duration) (store : Store) (h : History) : Prop where
  log : WriteLog store h.writes h.engine
  honest : ∀ before handled, before ++ [handled] <+: h.handled →
    Honest timeout store (before.filterMap (·.taken)) handled h.engine.appliedIndex

theorem sound_start (timeout : Duration) (id address : String) (store : Store) :
    Sound timeout store (start id address store) where
  log := .of_start id address store
  honest before handled within := by
    simp [start] at within

theorem Honest.later {before : List Entry} {handled : Handled} {m n : Nat}
    (honest : Honest timeout store before handled m) (le : m ≤ n) :
    Honest timeout store before handled n := by
  intro request entry done valid written
  obtain ⟨told, late⟩ := honest request entry done valid written
  refine ⟨fun tells => ?_, late⟩
  obtain ⟨taken, applied, verdict⟩ := told tells
  exact ⟨taken, applied.trans_le le, verdict⟩

theorem writes_snoc (h : History) (e : Engine Store) (last : Handled) :
    writes ⟨e, h.handled ++ [last]⟩ = h.writes ++ last.taken.toList := by
  rw [writes, List.filterMap_append]
  cases taken : last.taken <;> simp [writes, taken]

/-- What was honest stays so while the log goes on, and the last reply is honest as well. -/
theorem Sound.snoc (sound : Sound timeout store h) {e : Engine Store} {last : Handled}
    (log : WriteLog store (h.writes ++ last.taken.toList) e) (later : Engine.Later h.engine e)
    (honest : Honest timeout store h.writes last e.appliedIndex) :
    Sound timeout store ⟨e, h.handled ++ [last]⟩ where
  log := writes_snoc h e last ▸ log
  honest before handled within := by
    -- Either this is the command just handled, or it was among the earlier ones.
    rcases List.prefix_concat_iff.mp within with all | earlier
    · obtain ⟨rfl, same⟩ := List.append_inj' all rfl
      obtain rfl := List.singleton_inj.mp same
      exact honest
    · exact (sound.honest before handled earlier).later (sound.log.appliedIndex_mono log later)

theorem sound_step (sound : Sound timeout store h) {event : Event} (fits : event.Addressable) :
    Sound timeout store (h.step timeout event) := by
  cases event with
  | incident incident =>
    have log := sound.log.incident incident
    have later := Engine.later_incident Node.machine incident h.engine
    exact ⟨log, fun before handled within =>
      (sound.honest before handled within).later (sound.log.appliedIndex_mono log later)⟩
  | handle book command meanwhile =>
    cases taken : h.engine.taken? command with
    | none =>
      obtain ⟨reply, handled, vague⟩ := Engine.handle_of_not_taken taken timeout meanwhile book
      rw [step, handled, taken]
      refine sound.snoc (by simpa using sound.log) (.refl h.engine) ?_
      intro request entry done valid written
      have vague := vague request _ valid written
      exact ⟨fun tells => absurd tells (vague.not_tells written),
        fun late => absurd late (vague.ne_timeout timeout)⟩
    | some entry =>
      obtain ⟨request, done, reply, valid, written, handled, log, answered⟩ :=
        sound.log.handle fits taken timeout meanwhile book
      rw [step, handled, taken]
      refine sound.snoc log ?_ ?_
      · exact (Engine.later_submit _ h.engine).trans
          (Engine.later_afterAll Node.machine meanwhile _)
      · intro request' entry' done' valid' written'
        obtain rfl := Except.ok.inj (valid.symm.trans valid')
        obtain ⟨rfl, rfl⟩ := Prod.mk.inj (Option.some.inj (written.symm.trans written'))
        refine ⟨fun tells => ?_, fun _ => rfl⟩
        obtain ⟨applied, verdict⟩ := answered.applied written tells
        exact ⟨rfl, applied, verdict⟩

theorem sound_after (sound : Sound timeout store h) {events : List Event}
    (fits : ∀ event ∈ events, event.Addressable) :
    Sound timeout store (h.after timeout events) := by
  induction events generalizing h with
  | nil => exact sound
  | cons event events ih =>
    obtain ⟨now, later⟩ := List.forall_mem_cons.mp fits
    exact ih (sound_step sound now) later

/-! ## Histories go forward -/

theorem later_step (timeout : Duration) (h : History) (event : Event) :
    Engine.Later h.engine (h.step timeout event).engine := by
  cases event with
  | incident incident => exact Engine.later_incident Node.machine incident h.engine
  | handle book command meanwhile =>
    cases taken : h.engine.taken? command with
    | none =>
      obtain ⟨reply, handled, -⟩ := Engine.handle_of_not_taken taken timeout meanwhile book
      rw [step, handled]
      exact .refl h.engine
    | some entry =>
      obtain ⟨request, done, -, -, handled⟩ := Engine.handle_of_taken taken timeout meanwhile book
      rw [step, handled]
      exact (Engine.later_submit _ h.engine).trans (Engine.later_afterAll Node.machine meanwhile _)

theorem handled_step (timeout : Duration) (h : History) (event : Event) :
    h.handled <+: (h.step timeout event).handled := by
  cases event with
  | incident incident => exact List.prefix_rfl
  | handle book command meanwhile => exact List.prefix_append _ _

theorem later_after (timeout : Duration) (h : History) (events : List Event) :
    Engine.Later h.engine (h.after timeout events).engine := by
  induction events generalizing h with
  | nil => exact .refl h.engine
  | cons event events ih => exact (later_step timeout h event).trans (ih _)

theorem handled_after (timeout : Duration) (h : History) (events : List Event) :
    h.handled <+: (h.after timeout events).handled := by
  induction events generalizing h with
  | nil => exact List.prefix_rfl
  | cons event events ih => exact (handled_step timeout h event).trans (ih _)

theorem writes_after (timeout : Duration) (h : History) (events : List Event) :
    h.writes <+: (h.after timeout events).writes :=
  (handled_after timeout h events).filterMap _

/-- A worker that lives applies one more write on each of its turns, as long as there are any. -/
theorem applied_after (sound : Sound timeout store h) {events : List Event}
    (fits : ∀ event ∈ events, event.Addressable)
    (lives : (h.after timeout events).engine.working = true) {n : Nat} (taken : n ≤ h.writes.length)
    (due : n ≤ h.engine.appliedIndex + events.count (.incident .work)) :
    n ≤ (h.after timeout events).engine.appliedIndex := by
  induction events generalizing h with
  | nil => exact due
  | cons event events ih =>
    obtain ⟨now, later⟩ := List.forall_mem_cons.mp fits
    have sound' : Sound timeout store (h.step timeout event) := sound_step sound now
    refine ih sound' later lives ?_ ?_
    · exact taken.trans ((handled_step timeout h event).filterMap _).length_le
    · by_cases turn : event = .incident .work
      · subst turn
        -- A dead worker never comes back, so this one was alive for its turn.
        have alive : h.engine.working = true := by
          by_contra dead
          have later' := later_after timeout h (.incident .work :: events)
          rw [(later'.dead (by simpa using dead)).1] at lives
          cases lives
        have worked : (h.step timeout (.incident .work)).engine.appliedIndex =
            min (h.engine.appliedIndex + 1) h.writes.length := sound.log.work_appliedIndex alive
        rw [List.count_cons_self] at due
        omega
      · have mono := sound.log.appliedIndex_mono sound'.log (later_step timeout h event)
        rw [List.count_cons_of_ne turn] at due
        omega

/-! ## The history without delays -/

/-- The second history took the same writes and is as ready for more, but its worker has
nothing left to do. -/
structure Paired (h prompt : History) : Prop where
  alike : Engine.Alike h.engine prompt.engine
  writes : prompt.writes = h.writes
  idle : prompt.engine.Idle

theorem Event.prompt_addressable {event : Event} (fits : event.Addressable) :
    event.prompt.Addressable := by
  cases event <;> exact fits

theorem Paired.step {prompt : History} (paired : Paired h prompt) (sound : Sound timeout store h)
    (sound' : Sound timeout store prompt) {event : Event} (fits : event.Addressable) :
    Paired (h.step timeout event) (prompt.step timeout event.prompt) := by
  obtain ⟨alike, writes, idle⟩ := paired
  cases event with
  | incident incident =>
    exact ⟨sound.log.alike_incident sound'.log alike incident, writes,
      idle.incident Node.machine incident⟩
  | handle book command meanwhile =>
    have same := alike.taken? command
    rw [Event.prompt, History.step, History.step, same]
    cases taken : h.engine.taken? command with
    | none =>
      obtain ⟨reply, handled, -⟩ := Engine.handle_of_not_taken taken timeout meanwhile book
      obtain ⟨reply', handled', -⟩ :=
        Engine.handle_of_not_taken (same.trans taken) timeout (.work :: meanwhile) book
      rw [handled, handled']
      exact ⟨alike, by rw [writes_snoc, writes_snoc, writes], idle⟩
    | some entry =>
      obtain ⟨request, done, valid, written, handled⟩ :=
        Engine.handle_of_taken taken timeout meanwhile book
      obtain ⟨request', done', -, -, handled'⟩ :=
        Engine.handle_of_taken (same.trans taken) timeout (.work :: meanwhile) book
      rw [handled, handled']
      obtain ⟨-, opened⟩ := Engine.taken?_eq_some_iff.mp taken
      have opened' := alike.opened opened
      have entryFits :=
        Request.entry_addressable valid written fits
      have log := sound.log.submit opened entryFits
      have log' := sound'.log.submit opened' entryFits
      -- Its queue was empty, so the prompt worker applies this very write on its first turn.
      have worked := Engine.work_submit (idle opened'.working) opened' entryFits
      refine ⟨?_, by rw [writes_snoc, writes_snoc, writes], ?_⟩
      · have ready := ((Engine.submit_alike entry.encode h.engine).symm.trans
          (alike.trans (Engine.submit_alike entry.encode prompt.engine))).trans log'.work_alike
        exact log.alike_afterAll (log'.incident .work) ready meanwhile
      · have idle' : ((prompt.engine.submit entry.encode).2.work Node.machine).Idle := by
          rw [worked]
          exact fun _ => rfl
        exact idle'.afterAll Node.machine meanwhile

theorem Paired.after {prompt : History} (paired : Paired h prompt) (sound : Sound timeout store h)
    (sound' : Sound timeout store prompt) {events : List Event}
    (fits : ∀ event ∈ events, event.Addressable) :
    Paired (h.after timeout events) (prompt.after timeout (events.map Event.prompt)) := by
  induction events generalizing h prompt with
  | nil => exact paired
  | cons event events ih =>
    obtain ⟨now, later⟩ := List.forall_mem_cons.mp fits
    exact ih (paired.step sound sound' now) (sound_step sound now)
      (sound_step sound' (Event.prompt_addressable now)) later

/-! ## Acknowledged writes -/

/-- Where the log has the write of a handled command, by the reply. -/
theorem Sound.told (sound : Sound timeout store h) {before : List Handled} {handled : Handled}
    {request : Request} {entry : Entry} {done : Reply} (within : before ++ [handled] <+: h.handled)
    (valid : Request.ofCommand handled.command = .ok request)
    (written : request.write? = some (entry, done)) :
    let earlier := before.filterMap (·.taken)
    (handled.reply.Tells done → earlier ++ [entry] <+: h.writes.take h.engine.appliedIndex ∧
      handled.reply = .ofVerdict done (entry.outcome (store.after earlier)).result) ∧
    (handled.reply = .ofFault (.applyTimeout timeout) → earlier ++ [entry] <+: h.writes) := by
  intro earlier
  obtain ⟨told, late⟩ := sound.honest before handled within request entry done valid written
  have place (taken : handled.taken = some entry) : earlier ++ [entry] <+: h.writes := by
    have longer := within.filterMap (·.taken)
    rwa [List.filterMap_append, List.filterMap_cons_some taken] at longer
  refine ⟨fun tells => ?_, fun reply => place (late reply)⟩
  obtain ⟨taken, applied, verdict⟩ := told tells
  refine ⟨List.prefix_take_iff.mpr ⟨place taken, ?_⟩, verdict⟩
  rw [List.length_append, List.length_singleton]
  exact applied

/-- A read sees the writes that are applied. -/
theorem Sound.read (sound : Sound timeout store h) (leads : h.engine.role = .leader)
    {command : Command} {key : Bytes} (valid : Request.ofCommand command = .ok (.get key))
    (book : AddressBook) (meanwhile : List Incident) :
    (Engine.replicaDuring .memory timeout meanwhile).handle book h.engine command =
      (match (store.after (h.writes.take h.engine.appliedIndex)).get? key with
        | some value => .value value
        | none => .null, h.engine) := by
  rw [Replica.handle_of_get valid leads, ← sound.log.state_eq]
  simp only [Replica.readReply, Engine.replicaDuring, Storage.memory]
  cases h.engine.state.get? key <;> rfl

/-- Once a write is answered with what became of it, it and all earlier ones are applied.

At every moment of a history the store is what the first `appliedIndex` accepted
writes make of it, and they are all the log holds, applied or queued. A reply that
tells of an outcome is the verdict on that write and comes when it is applied
along with all those before it; a write that was waited for in vain is accepted,
once and at its place. A read sees every write that is applied. Later every write
is still in its place, and a worker that lives applies one on each turn. Once such
a worker has emptied the queue, the store is that of the history without delays.

An engine that keeps time answers commands in one of the ways considered here. -/
theorem told_writes_applied (timeout : Duration) (id address : String) (store : Store)
    (events later : List Event) (fits : ∀ event ∈ events ++ later, event.Addressable) :
    let h := (start id address store).after timeout events
    let h' := h.after timeout later
    let prompt := (start id address store).after timeout (events.map Event.prompt)
    h.engine.state = store.after (h.writes.take h.engine.appliedIndex) ∧
    h.engine.appliedIndex ≤ h.writes.length ∧
    h.engine.applied.map (·.proposal.data) ++ h.engine.queue.map (·.data) =
      h.writes.map Entry.encode ∧
    (∀ before handled request entry done, before ++ [handled] <+: h.handled →
      Request.ofCommand handled.command = .ok request → request.write? = some (entry, done) →
      let earlier := before.filterMap (·.taken)
      (handled.reply.Tells done → earlier ++ [entry] <+: h.writes.take h.engine.appliedIndex ∧
        handled.reply = .ofVerdict done (entry.outcome (store.after earlier)).result) ∧
      (handled.reply = .ofFault (.applyTimeout timeout) → earlier ++ [entry] <+: h.writes)) ∧
    (∀ book command meanwhile key, Request.ofCommand command = .ok (.get key) →
      h.engine.role = .leader →
      (Engine.replicaDuring .memory timeout meanwhile).handle book h.engine command =
        (match (store.after (h.writes.take h.engine.appliedIndex)).get? key with
          | some value => .value value
          | none => .null, h.engine)) ∧
    (h.writes <+: h'.writes ∧ h.engine.appliedIndex ≤ h'.engine.appliedIndex ∧
      (h'.engine.working = true →
        h.writes.length ≤ h.engine.appliedIndex + later.count (.incident .work) →
        h.writes.length ≤ h'.engine.appliedIndex)) ∧
    (h.engine.working = true →
      (h.engine.drain Node.machine).state = prompt.engine.state ∧
      prompt.writes = h.writes ∧ prompt.engine.queue = []) ∧
    ∀ (c : Clocked Store) (millis : Nat) (book : AddressBook) (command : Command),
      c.engine = h.engine → timeout = .ofMillis millis →
      ∃ turns, (Engine.replicaDuring .memory timeout (Engine.turns turns)).handle book h.engine
          command =
        (((Clocked.replica .memory millis).handle book c command).1,
          ((Clocked.replica .memory millis).handle book c command).2.engine) := by
  intro h h' prompt
  obtain ⟨fitsNow, fitsLater⟩ := List.forall_mem_append.mp fits
  have new := sound_start timeout id address store
  have sound : Sound timeout store h := sound_after new fitsNow
  have sound' : Sound timeout store h' := sound_after sound fitsLater
  have paired : Paired h prompt :=
    Paired.after ⟨.refl _, rfl, fun _ => rfl⟩ new new fitsNow
  have frames : h.engine.applied.map (·.proposal.data) ++ h.engine.queue.map (·.data) =
      h.writes.map Entry.encode := by
    rw [sound.log.applied_frames, sound.log.queue_frames, ← List.map_append, List.take_append_drop]
  have grown : h.engine.appliedIndex ≤ h'.engine.appliedIndex :=
    sound.log.appliedIndex_mono sound'.log (later_after timeout h later)
  have drained (alive : h.engine.working = true) :
      (h.engine.drain Node.machine).state = prompt.engine.state ∧
      prompt.writes = h.writes ∧ prompt.engine.queue = [] := by
    have idle := paired.idle (paired.alike.working.trans alive)
    have soundPrompt : Sound timeout store prompt :=
      sound_after new (List.forall_mem_map.mpr fun event member =>
        Event.prompt_addressable (fitsNow event member))
    refine ⟨?_, paired.writes, idle⟩
    rw [sound.log.drain_state alive, soundPrompt.log.state_of_idle idle, paired.writes]
  refine ⟨sound.log.state_eq, sound.log.appliedIndex_le, frames,
    fun before handled request entry done within valid written => sound.told within valid written,
    fun book command meanwhile key valid leads => sound.read leads valid book meanwhile,
    ⟨writes_after timeout h later, grown,
      fun lives due => applied_after sound fitsLater lives (Nat.le_refl _) due⟩,
    drained, ?_⟩
  intro c millis book command same limit
  rw [← same, limit]
  exact Clocked.handle_turns .memory millis book command c

/-- The first write is waited for in vain, the second one is told of, and a third is late again. -/
theorem told_writes_applied_session :
    let timeout := Duration.ofMillis 1000
    let set (value : UInt8) (meanwhile : List Incident) : Event :=
      .handle .empty (Request.set [107] [value]).command meanwhile
    let events := [.incident (.role .becomeLeader), set 1 [], set 2 [.work, .work]]
    let later := [set 3 [], .incident .work]
    let h := (start "node-1" "127.0.0.1:7379" .empty).after timeout events
    (∀ event ∈ events ++ later, event.Addressable) ∧
    h.handled.map (·.reply) =
      [.error "ERR apply timed out after 1000ms; write outcome is unknown", .ok] ∧
    h.engine.state = Store.empty.after [.put [107] [1], .put [107] [2]] := by
  intro timeout set events later h
  have fits : ∀ event ∈ events ++ later, event.Addressable := by decide +kernel
  have replies : h.handled.map (·.reply) =
      [.error "ERR apply timed out after 1000ms; write outcome is unknown", .ok] := by
    decide +kernel
  have applied : h.writes.take h.engine.appliedIndex = [.put [107] [1], .put [107] [2]] := by
    decide +kernel
  refine ⟨fits, replies, ?_⟩
  rw [← applied]
  exact (told_writes_applied timeout "node-1" "127.0.0.1:7379" .empty events later fits).1

end History

end LogKv
