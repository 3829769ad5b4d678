import LogKv.Log.Engine

/-!
A log engine with a clock, in milliseconds. The worker takes up an entry as soon as it is done with
the one before, and applies it after the commit delay that is set at that moment. Only waiting
takes time, so an entry that is submitted to an idle worker without a delay is applied at once. The
worker can be held, and then applies nothing until it is released.
-/

namespace LogKv

/-- A log engine whose worker keeps time. -/
structure Clocked (σ : Type) where
  engine : Engine σ
  /-- The time. -/
  now : Nat
  /-- How long the worker waits with the entries it takes up from now on. -/
  delay : Nat
  /-- When the worker applies the entry at the front of the queue. -/
  due : Nat
  /-- Whether the worker is held. -/
  held : Bool

/-- What a submitter waits on. -/
inductive Ticket where
  /-- A result that is there from the start. -/
  | settled (result : LogResult)
  /-- The result for the entry at an index, to come by a deadline, `timeout` after submission. -/
  | entry (index timeout deadline : Nat)

namespace Clocked

variable {σ : Type} (machine : StateMachine σ)

/-- A new engine at time 0, without a commit delay. -/
def start (id address : String) (state : σ) : Clocked σ where
  engine := .start id address state
  now := 0
  delay := 0
  due := 0
  held := false

/-- Changes the engine in a way that takes no time and concerns no entry. -/
def adjust (change : Engine σ → Engine σ) (c : Clocked σ) : Clocked σ :=
  { c with engine := change c.engine }

/-- When the worker applies its next entry, if it has one and may. -/
def next? (c : Clocked σ) : Option Nat :=
  if c.held || !c.engine.working || c.engine.queue.isEmpty then none else some c.due

/-- The worker applies the entry at the front of the queue, at the earliest when it is due, and
takes up the next one. -/
def work (c : Clocked σ) : Clocked σ :=
  let now := max c.now c.due
  { c with engine := c.engine.work machine, now := now, due := now + c.delay }

/-- The worker applies up to `steps` entries that are due. -/
def catchUpFor : Nat → Clocked σ → Clocked σ
  | 0, c => c
  | steps + 1, c =>
    match c.next? with
    | some time => if time ≤ c.now then catchUpFor steps (c.work machine) else c
    | none => c

/-- The worker applies all entries that are due. -/
def catchUp (c : Clocked σ) : Clocked σ := catchUpFor machine c.engine.queue.length c

/-- The worker applies up to `steps` entries, however long it takes. -/
def drainFor : Nat → Clocked σ → Clocked σ
  | 0, c => c
  | steps + 1, c =>
    match c.next? with
    | some _ => drainFor steps (c.work machine)
    | none => c

/-- Waits until the worker has emptied the queue or has broken down. -/
def drain (c : Clocked σ) : Clocked σ := drainFor machine c.engine.queue.length c

/-- Sets the commit delay. -/
def setDelay (delay : Nat) (c : Clocked σ) : Clocked σ := { c with delay := delay }

/-- Waits for the queue to empty, then holds the worker. -/
def hold (c : Clocked σ) : Clocked σ := { c.drain machine with held := true }

/-- Lets the worker go and waits for the queue to empty. -/
def release (c : Clocked σ) : Clocked σ := { c with held := false }.drain machine

/-- Lets the worker go and shuts the engine down. -/
def shutdown (c : Clocked σ) : Clocked σ :=
  (c.release machine).adjust (Engine.shutdown machine)

/-- Submits data for a new entry, to be waited for until `timeout` from now. -/
def submit (timeout : Nat) (data : Bytes) (c : Clocked σ) : Ticket × Clocked σ :=
  match c.engine.submit data with
  | (.refused delivery, engine) =>
    (.settled (delivery.afterWaiting (.ofMillis timeout)), { c with engine := engine })
  | (.accepted index, engine) =>
    let due := if c.engine.queue.isEmpty then c.now + c.delay else c.due
    (.entry index timeout (c.now + timeout),
      { c with engine := engine, due := due }.catchUp machine)

/-- Waits until the entry at `index` is settled or the deadline is there, looking at most `looks`
times. An entry that the worker applies only when the deadline is there comes too late. -/
def waitFor (index deadline : Nat) : Nat → Clocked σ → Clocked σ
  | 0, c => c
  | looks + 1, c =>
    if c.engine.isSettled index then c
    else
      match c.next? with
      | some time =>
        if time < deadline then waitFor index deadline looks (c.work machine)
        else { c with now := max c.now deadline }
      | none => { c with now := max c.now deadline }

/-- Waits for what a ticket promises, and takes what has come back by then. Every look but the last
finds an entry for the worker to apply, so one more than there are entries is enough. -/
def wait (ticket : Ticket) (c : Clocked σ) : LogResult × Clocked σ :=
  match ticket with
  | .settled result => (result, c)
  | .entry index timeout deadline =>
    let c := waitFor machine index deadline (c.engine.queue.length + 1) c
    ((c.engine.delivery index).afterWaiting (.ofMillis timeout), c)

/-- Submits data and waits for the result. -/
def call (timeout : Nat) (data : Bytes) (c : Clocked σ) : LogResult × Clocked σ :=
  match submit machine timeout data c with
  | (ticket, c) => wait machine ticket c

end Clocked

end LogKv
