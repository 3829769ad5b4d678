import LogKv.Proofs.Observations
import LogKv.Proofs.SessionReplies
import LogKv.Server

/-! Who is let in by a server. The gate counts the clients whose sessions go on, however
these come and go, so the limit is kept and every place that a client leaves is free
again. A client that finds no place is told so, once, and takes up none. Stopping the
server lets nobody in any more, and is nothing that a client with a session could notice. -/
namespace LogKv

/-- What the client of a connection finds, and what it has received and not taken then. -/
def Connection.taken (connection : Connection) : Taken × Bytes :=
  match Resp.readReply connection.inbox with
  | .ok (reply, inbox) => (.reply reply, inbox)
  | .error .endOfInput => (if connection.isOpen then .nothingYet else .closed, [])
  | .error fault => (.malformed fault, connection.inbox)

namespace Server

/-! ## What happens at a server -/

/-- Something that happens at a server. -/
inductive Event where
  /-- A client connects. -/
  | connect
  /-- Bytes from a client are read. -/
  | deliver (number : Nat) (bytes : Bytes)
  /-- A client leaves, or says nothing for too long. -/
  | hangUp (number : Nat)
  /-- A client takes its next reply. -/
  | take (number : Nat)
  /-- The server is told to let nobody in any more. -/
  | stop
  /-- Anything else that changes the node or the address book: time passes, roles change. -/
  | aside (node : Node → Node) (book : AddressBook → AddressBook)

/-- What clients find when something happens, and the server afterwards. -/
def happen (s : Server) : Event → List (Nat × Taken) × Server
  | .connect => ([], s.connect.2)
  | .deliver number bytes => ([], s.deliver number bytes)
  | .hangUp number => ([], s.hangUp number)
  | .take number =>
    match s.take number with
    | some (taken, s) => ([(number, taken)], s)
    | none => ([], s)
  | .stop => ([], s.stop)
  | .aside node book => ([], { s with node := node s.node, book := book s.book })

/-- The client that an event is about, if it is about one. -/
def Event.client? : Event → Option Nat
  | .deliver number _ | .hangUp number | .take number => some number
  | .connect | .stop | .aside _ _ => none

/-- Whether the event is that this client takes its next reply. -/
def Event.isTakeOf (number : Nat) : Event → Bool
  | .take other => other == number
  | _ => false

/-- What is left of an event if the server is never stopped. -/
def Event.unstopped : Event → List Event
  | .stop => []
  | event => [event]

/-- How many clients are connected to a session that has not ended. -/
def openCount (s : Server) : Nat := s.connections.countP Connection.isOpen

/-- Whether the client of that number is connected to a session that has not ended. -/
def isOpenAt (s : Server) (number : Nat) : Bool := s.connections[number]?.any Connection.isOpen

variable {s t : Server} {number other limit n : Nat} {before after : Session} {inbox : Bytes}

theorem isOpenAt_of {connection : Connection} (there : s.connections[number]? = some connection) :
    s.isOpenAt number = connection.isOpen := by
  simp [isOpenAt, there]

/-! ## Arrivals -/

theorem connect_of_stopped (stopped : s.gate.stopped = true) : s.connect = (none, s) := by
  simp [connect, Gate.arrive, stopped]

theorem connect_of_full (running : s.gate.stopped = false) (full : s.gate.limit ≤ s.gate.active) :
    s.connect = (some s.connections.length,
      { s with connections := s.connections ++ [⟨none, Resp.encodeReply Gate.full⟩] }) := by
  have excess : s.gate.limit < s.gate.active + 1 := by omega
  have same : (⟨s.gate.limit, s.gate.active, false⟩ : Gate) = s.gate := by rw [← running]
  simp [connect, Gate.arrive, Gate.leave, running, excess, same]

theorem connect_of_room (running : s.gate.stopped = false) (room : s.gate.active < s.gate.limit) :
    s.connect = (some s.connections.length,
      { s with
        gate.active := s.gate.active + 1
        connections := s.connections ++ [⟨some .start, []⟩] }) := by
  have under : ¬s.gate.limit < s.gate.active + 1 := by omega
  simp [connect, Gate.arrive, running, under]

/-- Whether and how a client is let in, its arrival changes nothing for the others. -/
theorem connect_keeps (s : Server) :
    s.connect.2.node = s.node ∧ s.connect.2.book = s.book ∧
      s.connect.2.gate.stopped = s.gate.stopped ∧
      ∃ arrived, s.connect.2.connections = s.connections ++ arrived := by
  cases stopped : s.gate.stopped with
  | true =>
    rw [connect_of_stopped stopped]
    exact ⟨rfl, rfl, stopped, [], by simp⟩
  | false =>
    by_cases full : s.gate.limit ≤ s.gate.active
    · rw [connect_of_full stopped full]
      exact ⟨rfl, rfl, stopped, _, rfl⟩
    · rw [connect_of_room stopped (by omega)]
      exact ⟨rfl, rfl, stopped, _, rfl⟩

/-! ## Sessions that go on -/

/-- At most one session has gone on, and it has not come back from its end. -/
inductive Proceeds (number : Nat) (s : Server) : Server → Prop where
  | unserved (gone : ∀ session inbox, s.connections[number]? ≠ some ⟨some session, inbox⟩) :
    Proceeds number s s
  | served {before after : Session} {inbox : Bytes} (node : Node)
    (there : s.connections[number]? = some ⟨some before, inbox⟩)
    (final : before.ending.isSome = true → after.ending.isSome = true) :
    Proceeds number s ({ s with node := node }.proceed number inbox before after)

theorem close_isSome (session : Session) : session.close.ending.isSome = true := by
  rw [Session.close]
  split <;> simp [*]

theorem receive_isSome {κ : Type} {handle : κ → Command → Reply × κ} {chunk : Bytes} {k : κ}
    (ended : before.ending.isSome = true) :
    (before.receive handle chunk k).1.ending.isSome = true := by
  obtain ⟨ending, closed⟩ := Option.isSome_iff_exists.mp ended
  rw [Session.receive_of_ended closed]
  exact ended

theorem served_or_gone (s : Server) (number : Nat) :
    (∃ session inbox, s.connections[number]? = some ⟨some session, inbox⟩) ∨
      ∀ session inbox, s.connections[number]? ≠ some ⟨some session, inbox⟩ := by
  by_cases served : ∃ session inbox, s.connections[number]? = some ⟨some session, inbox⟩
  · exact .inl served
  · exact .inr fun session inbox there => served ⟨session, inbox, there⟩

theorem deliver_of_served {bytes : Bytes} {received : Session × Node}
    (there : s.connections[number]? = some ⟨some before, inbox⟩)
    (done : before.receive (Node.handle s.book) bytes s.node = received) :
    s.deliver number bytes =
      { s with node := received.2 }.proceed number inbox before received.1 := by
  simp only [deliver, there, done]

theorem deliver_of_gone
    (gone : ∀ session inbox, s.connections[number]? ≠ some ⟨some session, inbox⟩)
    (bytes : Bytes) : s.deliver number bytes = s := by
  rw [deliver]
  split
  next there => exact absurd there (gone _ _)
  rfl

theorem deliver_proceeds (s : Server) (number : Nat) (bytes : Bytes) :
    Proceeds number s (s.deliver number bytes) := by
  rcases served_or_gone s number with ⟨before, inbox, there⟩ | gone
  · rw [deliver_of_served there rfl]
    exact .served _ there receive_isSome
  · rw [deliver_of_gone gone]
    exact .unserved gone

theorem hangUp_of_served (there : s.connections[number]? = some ⟨some before, inbox⟩) :
    s.hangUp number = s.proceed number inbox before before.close := by
  simp only [hangUp, there]

theorem hangUp_of_gone
    (gone : ∀ session inbox, s.connections[number]? ≠ some ⟨some session, inbox⟩) :
    s.hangUp number = s := by
  rw [hangUp]
  split
  next there => exact absurd there (gone _ _)
  rfl

theorem hangUp_proceeds (s : Server) (number : Nat) : Proceeds number s (s.hangUp number) := by
  rcases served_or_gone s number with ⟨before, inbox, there⟩ | gone
  · rw [hangUp_of_served there]
    exact .served s.node there fun _ => close_isSome before
  · rw [hangUp_of_gone gone]
    exact .unserved gone

theorem proceed_connection (there : s.connections[number]? = some ⟨some before, inbox⟩)
    (node : Node) :
    ({ s with node := node }.proceed number inbox before after).connections[number]? =
      some ⟨some after, inbox ++ sentSince before after⟩ := by
  obtain ⟨inside, -⟩ := List.getElem?_eq_some_iff.mp there
  simp [proceed, inside]

theorem Proceeds.elsewhere (proceeds : Proceeds other s t) (elsewhere : other ≠ number) :
    t.connections[number]? = s.connections[number]? := by
  cases proceeds with
  | unserved => rfl
  | served => simp [proceed, elsewhere]

theorem Proceeds.gate (proceeds : Proceeds number s t) :
    t.gate.limit = s.gate.limit ∧ t.gate.stopped = s.gate.stopped ∧ t.book = s.book := by
  cases proceeds with
  | unserved => exact ⟨rfl, rfl, rfl⟩
  | served =>
    rw [proceed]
    dsimp only
    split <;> exact ⟨rfl, rfl, rfl⟩

theorem openCount_set {old : Connection} (there : s.connections[number]? = some old)
    (new : Connection) :
    (s.connections.set number new).countP Connection.isOpen + old.isOpen.toNat =
      s.openCount + new.isOpen.toNat := by
  obtain ⟨inside, rfl⟩ := List.getElem?_eq_some_iff.mp there
  rw [List.countP_set inside, openCount]
  cases isOpen : s.connections[number].isOpen with
  | false => cases new.isOpen <;> simp
  | true =>
    have counted : 0 < s.connections.countP Connection.isOpen :=
      List.countP_pos_iff.mpr ⟨_, List.getElem_mem inside, isOpen⟩
    cases new.isOpen <;> simp <;> omega

/-- A session that ends gives back one place, which was counted. -/
theorem Proceeds.active (proceeds : Proceeds number s t) (counted : s.gate.active = s.openCount) :
    t.gate.active = t.openCount ∧
      t.gate.active + (s.isOpenAt number && !t.isOpenAt number).toNat = s.gate.active := by
  cases proceeds with
  | unserved => exact ⟨counted, by simp⟩
  | @served before after inbox node there final =>
    have count := openCount_set there ⟨some after, inbox ++ sentSince before after⟩
    rw [isOpenAt_of there, isOpenAt_of (proceed_connection there node)]
    simp only [openCount, proceed, Connection.isOpen] at count counted ⊢
    cases was : before.ending <;> cases ending : after.ending <;>
      simp [Gate.leave, was, ending] at count counted final ⊢ <;> omega

/-! ## Replies that are taken -/

theorem take_eq {connection : Connection} (there : s.connections[number]? = some connection) :
    s.take number =
      some (connection.taken.1,
        { s with connections :=
            s.connections.set number { connection with inbox := connection.taken.2 } }) := by
  have unchanged : s.connections.set number connection = s.connections := by
    obtain ⟨inside, same⟩ := List.getElem?_eq_some_iff.mp there
    rw [← same, List.set_getElem_self]
  cases read : Resp.readReply connection.inbox with
  | ok found => simp [take, there, Connection.taken, read]
  | error fault =>
    cases fault with
    | endOfInput => simp [take, there, Connection.taken, read]
    | _ => simp [take, there, Connection.taken, read, unchanged]

theorem happen_take {connection : Connection} (there : s.connections[number]? = some connection) :
    s.happen (.take number) =
      ([(number, connection.taken.1)],
        { s with connections :=
            s.connections.set number { connection with inbox := connection.taken.2 } }) := by
  rw [happen, take_eq there]

theorem happen_take_of_none (nobody : s.connections[number]? = none) :
    s.happen (.take number) = ([], s) := by
  simp only [happen, take, nobody]

/-! ## The count -/

/-- The gate counts the open connections, of which there are never too many. -/
structure Sound (limit : Nat) (s : Server) : Prop where
  places : s.gate.limit = limit
  counted : s.gate.active = s.openCount
  bounded : s.gate.active ≤ limit

theorem sound_start (node : Node) (book : AddressBook) (bound : Option String) :
    Sound node.config.maxConnections (start node book bound) :=
  ⟨rfl, rfl, Nat.zero_le _⟩

theorem Sound.connect (sound : Sound limit s) : Sound limit s.connect.2 := by
  obtain ⟨places, counted, bounded⟩ := sound
  cases stopped : s.gate.stopped with
  | true =>
    rw [connect_of_stopped stopped]
    exact ⟨places, counted, bounded⟩
  | false =>
    by_cases full : s.gate.limit ≤ s.gate.active
    · rw [connect_of_full stopped full]
      refine ⟨places, ?_, bounded⟩
      simpa [openCount, Connection.isOpen] using counted
    · rw [connect_of_room stopped (by omega)]
      refine ⟨places, ?_, ?_⟩
      · simpa [openCount, Connection.isOpen, Session.start] using counted
      · dsimp only
        omega

theorem Sound.proceeds (sound : Sound limit s) (proceeds : Proceeds number s t) :
    Sound limit t := by
  obtain ⟨counted, active⟩ := proceeds.active sound.counted
  have bounded := sound.bounded
  exact ⟨proceeds.gate.1.trans sound.places, counted, by omega⟩

theorem Sound.happen (sound : Sound limit s) (event : Event) : Sound limit (s.happen event).2 := by
  cases event with
  | connect => exact sound.connect
  | deliver number bytes => exact sound.proceeds (deliver_proceeds s number bytes)
  | hangUp number => exact sound.proceeds (hangUp_proceeds s number)
  | take number =>
    cases there : s.connections[number]? with
    | none =>
      rw [happen_take_of_none there]
      exact sound
    | some connection =>
      rw [happen_take there]
      have count := openCount_set there { connection with inbox := connection.taken.2 }
      exact ⟨sound.places, sound.counted.trans (Nat.add_right_cancel count).symm, sound.bounded⟩
  | stop => exact ⟨sound.places, sound.counted, sound.bounded⟩
  | aside node book => exact ⟨sound.places, sound.counted, sound.bounded⟩

theorem happen_stopped (s : Server) (event : Event) :
    (s.happen event).2.gate.stopped = true ↔ s.gate.stopped = true ∨ event = .stop := by
  cases event with
  | connect =>
    obtain ⟨-, -, stopped, -⟩ := connect_keeps s
    simp [happen, stopped]
  | deliver number bytes => simp [happen, (deliver_proceeds s number bytes).gate]
  | hangUp number => simp [happen, (hangUp_proceeds s number).gate]
  | take number =>
    cases there : s.connections[number]? with
    | none => simp [happen_take_of_none there]
    | some connection => simp [happen_take there]
  | stop => simp [happen, stop, Gate.stop]
  | aside node book => simp [happen]

theorem stopped_iff (s : Server) (events : List Event) :
    (observe happen s events).2.gate.stopped = true ↔ s.gate.stopped = true ∨ .stop ∈ events := by
  induction events generalizing s with
  | nil => simp [observe]
  | cons event events ih =>
    simp only [observe, ih, happen_stopped, List.mem_cons, or_assoc, @eq_comm Event event .stop]

/-! ## What becomes of one connection -/

/-- An event that is not about a client is nothing to its connection. -/
theorem happen_elsewhere {connection : Connection} {event : Event}
    (there : s.connections[number]? = some connection) (elsewhere : event.client? ≠ some number) :
    seenAt number (s.happen event).1 = [] ∧
      (s.happen event).2.connections[number]? = some connection := by
  have apart {other : Nat} (about : event.client? = some other) : other ≠ number :=
    fun same => elsewhere (same ▸ about)
  cases event with
  | connect =>
    obtain ⟨-, -, -, arrived, more⟩ := connect_keeps s
    obtain ⟨inside, -⟩ := List.getElem?_eq_some_iff.mp there
    refine ⟨rfl, ?_⟩
    rw [happen, more, List.getElem?_append_left inside, there]
  | deliver other bytes =>
    exact ⟨rfl, ((deliver_proceeds s other bytes).elsewhere (apart rfl)).trans there⟩
  | hangUp other => exact ⟨rfl, ((hangUp_proceeds s other).elsewhere (apart rfl)).trans there⟩
  | take other =>
    cases found : s.connections[other]? with
    | none =>
      rw [happen_take_of_none found]
      exact ⟨rfl, there⟩
    | some connection =>
      rw [happen_take found]
      simp [seenAt, apart rfl, there]
  | stop => exact ⟨rfl, there⟩
  | aside node book => exact ⟨rfl, there⟩

theorem gone_of_sentAway (sentAway : s.connections[number]? = some ⟨none, inbox⟩)
    (session : Session) (received : Bytes) :
    s.connections[number]? ≠ some ⟨some session, received⟩ := by
  simp [sentAway]

/-- A client that was sent away, and what it has received and not taken, is left alone. -/
theorem happen_sentAway {event : Event} (sentAway : s.connections[number]? = some ⟨none, inbox⟩)
    (other : event ≠ .take number) :
    seenAt number (s.happen event).1 = [] ∧
      (s.happen event).2.connections[number]? = some ⟨none, inbox⟩ := by
  have gone := gone_of_sentAway sentAway
  by_cases own : event.client? = some number
  · cases event with
    | deliver =>
      obtain rfl := Option.some.inj own
      rw [happen, deliver_of_gone gone]
      exact ⟨rfl, sentAway⟩
    | hangUp =>
      obtain rfl := Option.some.inj own
      rw [happen, hangUp_of_gone gone]
      exact ⟨rfl, sentAway⟩
    | take => exact absurd (congrArg Event.take (Option.some.inj own)) other
    | _ => cases own
  · exact happen_elsewhere sentAway own

theorem take_sentAway (sentAway : s.connections[number]? = some ⟨none, inbox⟩) :
    seenAt number (s.happen (.take number)).1 = [(⟨none, inbox⟩ : Connection).taken.1] ∧
      (s.happen (.take number)).2.connections[number]? =
        some ⟨none, (⟨none, inbox⟩ : Connection).taken.2⟩ := by
  obtain ⟨inside, -⟩ := List.getElem?_eq_some_iff.mp sentAway
  simp [happen_take sentAway, seenAt, inside]

theorem countP_takes_cons (number : Nat) (events : List Event) :
    (.take number :: events).countP (Event.isTakeOf number) =
      events.countP (Event.isTakeOf number) + 1 :=
  List.countP_cons_of_pos (by simp [Event.isTakeOf])

theorem countP_takes_cons_of_ne {event : Event} (other : event ≠ .take number)
    (events : List Event) :
    (event :: events).countP (Event.isTakeOf number) =
      events.countP (Event.isTakeOf number) := by
  refine List.countP_cons_of_neg fun own => ?_
  cases event with
  | take taker => exact other (congrArg Event.take (eq_of_beq own))
  | _ => cases own

/-- There is nothing more to come for a client that was sent away, however often it looks. -/
theorem observe_closed (sentAway : s.connections[number]? = some ⟨none, []⟩)
    (events : List Event) :
    seenAt number (observe happen s events).1 =
        List.replicate (events.countP (Event.isTakeOf number)) .closed ∧
      (observe happen s events).2.connections[number]? = some ⟨none, []⟩ := by
  induction events generalizing s with
  | nil => exact ⟨rfl, sentAway⟩
  | cons event events ih =>
    simp only [observe, seenAt_append]
    by_cases own : event = .take number
    · subst own
      obtain ⟨seen, still⟩ := take_sentAway sentAway
      obtain ⟨later, final⟩ := ih still
      rw [countP_takes_cons, seen, later]
      exact ⟨rfl, final⟩
    · obtain ⟨seen, still⟩ := happen_sentAway sentAway own
      obtain ⟨later, final⟩ := ih still
      rw [countP_takes_cons_of_ne own, seen, later]
      exact ⟨rfl, final⟩

/-- A client that was sent away finds out why the first time it looks, and from then on that it
was. -/
theorem observe_sentAway
    (sentAway : s.connections[number]? = some ⟨none, Resp.encodeReply Gate.full⟩)
    (events : List Event) :
    let takes := events.countP (Event.isTakeOf number)
    seenAt number (observe happen s events).1 =
        (.reply Gate.full :: List.replicate takes .closed).take takes ∧
      ∃ left, (observe happen s events).2.connections[number]? = some ⟨none, left⟩ := by
  have told : (⟨none, Resp.encodeReply Gate.full⟩ : Connection).taken = (.reply Gate.full, []) := by
    decide +kernel
  intro takes
  induction events generalizing s with
  | nil => exact ⟨rfl, _, sentAway⟩
  | cons event events ih =>
    simp only [takes, observe, seenAt_append]
    by_cases own : event = .take number
    · subst own
      obtain ⟨seen, still⟩ := take_sentAway sentAway
      rw [told] at seen still
      obtain ⟨later, final⟩ := observe_closed still events
      refine ⟨?_, _, final⟩
      rw [countP_takes_cons, seen, later, List.take_succ_cons]
      simp
    · obtain ⟨seen, still⟩ := happen_sentAway sentAway own
      obtain ⟨later, final⟩ := ih still
      rw [countP_takes_cons_of_ne own, seen, later]
      exact ⟨rfl, final⟩

/-! ## With and without a stop -/

/-- Two servers that the first `n` clients cannot tell apart. -/
structure Alike (n : Nat) (s t : Server) : Prop where
  node : s.node = t.node
  book : s.book = t.book
  there : ∀ number < n, ∃ connection, s.connections[number]? = some connection ∧
    t.connections[number]? = some connection

/-- What is about one of these clients is the same to it, and does the same to the node. -/
theorem Alike.own {event : Event} (alike : Alike n s t) (among : number < n)
    (own : event.client? = some number) :
    seenAt number (s.happen event).1 = seenAt number (t.happen event).1 ∧
      (s.happen event).2.node = (t.happen event).2.node ∧
      ∃ connection, (s.happen event).2.connections[number]? = some connection ∧
        (t.happen event).2.connections[number]? = some connection := by
  obtain ⟨node, book, there⟩ := alike
  obtain ⟨⟨session, inbox⟩, inS, inT⟩ := there number among
  cases event with
  | deliver other bytes =>
    obtain rfl := Option.some.inj own
    rw [happen, happen]
    cases session with
    | none =>
      rw [deliver_of_gone (gone_of_sentAway inS), deliver_of_gone (gone_of_sentAway inT)]
      exact ⟨rfl, node, _, inS, inT⟩
    | some before =>
      let received := before.receive (Node.handle s.book) bytes s.node
      have same : before.receive (Node.handle t.book) bytes t.node = received := by
        rw [← node, ← book]
      rw [deliver_of_served inS rfl, deliver_of_served inT same]
      exact ⟨rfl, rfl, _, proceed_connection inS received.2, proceed_connection inT received.2⟩
  | hangUp other =>
    obtain rfl := Option.some.inj own
    rw [happen, happen]
    cases session with
    | none =>
      rw [hangUp_of_gone (gone_of_sentAway inS), hangUp_of_gone (gone_of_sentAway inT)]
      exact ⟨rfl, node, _, inS, inT⟩
    | some before =>
      rw [hangUp_of_served inS, hangUp_of_served inT]
      exact ⟨rfl, node, _, proceed_connection inS s.node, proceed_connection inT t.node⟩
  | take other =>
    obtain rfl := Option.some.inj own
    obtain ⟨insideS, -⟩ := List.getElem?_eq_some_iff.mp inS
    obtain ⟨insideT, -⟩ := List.getElem?_eq_some_iff.mp inT
    rw [happen_take inS, happen_take inT]
    exact ⟨rfl, node, _, List.getElem?_set_self insideS, List.getElem?_set_self insideT⟩
  | _ => cases own

/-- Nothing else changes the node. -/
theorem happen_quiet {event : Event} (silent : ¬∃ number bytes, event = .deliver number bytes)
    (still : ¬∃ node book, event = .aside node book) (s : Server) :
    (s.happen event).2.node = s.node ∧ (s.happen event).2.book = s.book := by
  cases event with
  | connect =>
    obtain ⟨node, book, -⟩ := connect_keeps s
    exact ⟨node, book⟩
  | deliver number bytes => exact absurd ⟨number, bytes, rfl⟩ silent
  | hangUp number =>
    rw [happen]
    rcases served_or_gone s number with ⟨before, inbox, there⟩ | gone
    · rw [hangUp_of_served there]
      exact ⟨rfl, rfl⟩
    · rw [hangUp_of_gone gone]
      exact ⟨rfl, rfl⟩
  | take number =>
    cases there : s.connections[number]? with
    | none =>
      rw [happen_take_of_none there]
      exact ⟨rfl, rfl⟩
    | some connection =>
      rw [happen_take there]
      exact ⟨rfl, rfl⟩
  | stop => exact ⟨rfl, rfl⟩
  | aside node book => exact absurd ⟨node, book, rfl⟩ still

theorem Alike.happen {event : Event} (alike : Alike n s t)
    (early : ∀ number bytes, event = .deliver number bytes → number < n) :
    (∀ i : Fin n, seenAt i (s.happen event).1 = seenAt i (t.happen event).1) ∧
      Alike n (s.happen event).2 (t.happen event).2 := by
  have each (number : Nat) (among : number < n) :
      seenAt number (s.happen event).1 = seenAt number (t.happen event).1 ∧
        ∃ connection, (s.happen event).2.connections[number]? = some connection ∧
          (t.happen event).2.connections[number]? = some connection := by
    by_cases own : event.client? = some number
    · obtain ⟨seen, -, same⟩ := alike.own among own
      exact ⟨seen, same⟩
    · obtain ⟨connection, inS, inT⟩ := alike.there number among
      obtain ⟨nothingS, stillS⟩ := happen_elsewhere inS own
      obtain ⟨nothingT, stillT⟩ := happen_elsewhere inT own
      exact ⟨nothingS.trans nothingT.symm, connection, stillS, stillT⟩
  have both : (s.happen event).2.node = (t.happen event).2.node ∧
      (s.happen event).2.book = (t.happen event).2.book := by
    by_cases delivered : ∃ number bytes, event = .deliver number bytes
    · obtain ⟨number, bytes, rfl⟩ := delivered
      have own : (Event.deliver number bytes).client? = some number := rfl
      obtain ⟨-, node, -⟩ := alike.own (early number bytes rfl) own
      have bookS := (deliver_proceeds s number bytes).gate.2.2
      have bookT := (deliver_proceeds t number bytes).gate.2.2
      exact ⟨node, bookS.trans (alike.book.trans bookT.symm)⟩
    · by_cases changed : ∃ node book, event = .aside node book
      · obtain ⟨change, amend, rfl⟩ := changed
        exact ⟨congrArg change alike.node, congrArg amend alike.book⟩
      · obtain ⟨nodeS, bookS⟩ := happen_quiet delivered changed s
        obtain ⟨nodeT, bookT⟩ := happen_quiet delivered changed t
        exact ⟨nodeS.trans (alike.node.trans nodeT.symm),
          bookS.trans (alike.book.trans bookT.symm)⟩
  exact ⟨fun i => (each i i.isLt).1, both.1, both.2, fun number among => (each number among).2⟩

theorem Alike.unstopped {event : Event} (alike : Alike n s t)
    (early : ∀ number bytes, event = .deliver number bytes → number < n) :
    let (taken, after) := observe Server.happen t event.unstopped
    (∀ i : Fin n, seenAt i (s.happen event).1 = seenAt i taken) ∧
      Alike n (s.happen event).2 after := by
  by_cases stop : event = .stop
  · subst stop
    exact ⟨fun _ => rfl, alike.node, alike.book, alike.there⟩
  · have same : event.unstopped = [event] := by
      cases event with
      | stop => exact absurd rfl stop
      | _ => rfl
    rw [same, observe_singleton]
    exact alike.happen early

/-- Clients that came early enough find the same if the server is never stopped, as long as nobody
says anything who came later. -/
theorem Alike.observe (alike : Alike n s t) {events : List Event}
    (early : ∀ number bytes, .deliver number bytes ∈ events → number < n) :
    let (taken, after) := observe Server.happen s events
    let (unstopped, further) := observe Server.happen t (events.flatMap Event.unstopped)
    (∀ i : Fin n, seenAt i taken = seenAt i unstopped) ∧ Alike n after further :=
  observe_agrees (Alike n) Event.unstopped Fin.val Fin.val
    (fun _ member _ _ alike =>
      alike.unstopped fun number bytes same => early number bytes (same ▸ member))
    alike

/-! ## Admission -/

/-- How a server with this many places, stopped or not, deals with its clients. -/
structure Admission (limit : Nat) (stopped : Prop) (s : Server) : Prop where
  /-- The gate counts the clients whose sessions go on, ... -/
  counted : s.gate.active = s.openCount
  /-- ... and there is a place for each of them. -/
  bounded : s.gate.active ≤ limit
  /-- Who connects is served exactly if the server is not stopped and has a place to give. -/
  served_iff : (∃ number, s.connect.1 = some number ∧ s.connect.2.isOpenAt number = true) ↔
    ¬stopped ∧ s.openCount < limit
  /-- Who is served takes the place. -/
  served : ¬stopped → s.openCount < limit →
    s.connect = (some s.connections.length,
      { s with
        gate.active := s.gate.active + 1
        connections := s.connections ++ [⟨some .start, []⟩] })
  /-- What a served client says is read by its session, on the node and with the book that all
  sessions share, and what the session sends on that is what the client receives. -/
  answered : ∀ (number : Nat) (session : Session) (inbox bytes : Bytes),
    s.connections[number]? = some ⟨some session, inbox⟩ →
      let (reached, node) := session.receive (Node.handle s.book) bytes s.node
      let after := s.deliver number bytes
      after.node = node ∧ after.book = s.book ∧
      ∃ sent, reached.outbox.output = session.outbox.output ++ sent ∧
        after.connections[number]? = some ⟨some reached, inbox ++ sent⟩
  /-- Who finds no place takes none. All that there ever is for such a client, whatever happens, is
  one reply, the first time it looks for one, and after that the end of the connection. -/
  sentAway : ¬stopped → limit ≤ s.openCount →
    s.connect = (some s.connections.length,
      { s with connections := s.connections ++ [⟨none, Resp.encodeReply Gate.full⟩] }) ∧
    ∀ later : List Event,
      let (taken, after) := observe happen s.connect.2 later
      let takes := later.countP (Event.isTakeOf s.connections.length)
      after.isOpenAt s.connections.length = false ∧
      seenAt s.connections.length taken =
        (.reply (.error "ERR max number of clients reached") ::
          List.replicate takes .closed).take takes
  /-- Once the server is stopped, nobody is answered, and stopping it again is nothing. -/
  unanswered : stopped → s.connect = (none, s) ∧ s.stop = s
  /-- A session ends when its client leaves, and gives back its place, ... -/
  left : ∀ number,
    (s.hangUp number).isOpenAt number = false ∧
    (s.hangUp number).gate.active + (s.isOpenAt number).toNat = s.gate.active
  /-- ... and so does one that ends for what its client said. -/
  ended : ∀ number bytes,
    let after := s.deliver number bytes
    after.gate.active + (s.isOpenAt number && !after.isOpenAt number).toNat = s.gate.active
  /-- To the clients that are there it makes no difference whether the server is stopped now, if
  nobody else says anything: what they find is the same, and so are the node and the book. -/
  unnoticed : ∀ later : List Event,
    (∀ number bytes, .deliver number bytes ∈ later → number < s.connections.length) →
      let (taken, after) := observe happen s (.stop :: later)
      let (unstopped, further) := observe happen s (later.flatMap Event.unstopped)
      after.node = further.node ∧ after.book = further.book ∧
      ∀ number < s.connections.length,
        seenAt number taken = seenAt number unstopped ∧
        after.connections[number]? = further.connections[number]?

theorem hangUp_isOpenAt (s : Server) (number : Nat) :
    (s.hangUp number).isOpenAt number = false := by
  rcases served_or_gone s number with ⟨before, inbox, there⟩ | gone
  · have closed := close_isSome before
    rw [hangUp_of_served there, isOpenAt_of (proceed_connection there s.node)]
    simpa [Connection.isOpen] using closed
  · rw [hangUp_of_gone gone]
    cases there : s.connections[number]? with
    | none => simp [isOpenAt, there]
    | some connection =>
      obtain ⟨session, inbox⟩ := connection
      cases session with
      | none => simp [isOpenAt_of there, Connection.isOpen]
      | some session => exact absurd there (gone session inbox)

/-- What a client has received is what its session has sent. -/
theorem output_append_sentSince (further : before.outbox.sent <:+ after.outbox.sent) :
    after.outbox.output = before.outbox.output ++ sentSince before after := by
  obtain ⟨newer, split⟩ := further
  have since : after.outbox.sent.take (after.outbox.sent.length - before.outbox.sent.length) =
      newer := by
    simp [← split]
  rw [sentSince, since, Outbox.output, ← split, List.reverse_append, List.flatten_append,
    Outbox.output]

/-- What a client says is for its session. -/
theorem deliver_answered (there : s.connections[number]? = some ⟨some before, inbox⟩)
    (bytes : Bytes) :
    let (reached, node) := before.receive (Node.handle s.book) bytes s.node
    let after := s.deliver number bytes
    after.node = node ∧ after.book = s.book ∧
    ∃ sent, reached.outbox.output = before.outbox.output ++ sent ∧
      after.connections[number]? = some ⟨some reached, inbox ++ sent⟩ := by
  have further := Session.sent_receive (Node.handle s.book) bytes before s.node
  rw [deliver_of_served there rfl]
  exact ⟨rfl, rfl, _, output_append_sentSince further, proceed_connection there _⟩

theorem Sound.admission {stopped : Prop} (sound : Sound limit s)
    (told : s.gate.stopped = true ↔ stopped) : Admission limit stopped s := by
  have running (notYet : ¬stopped) : s.gate.stopped = false :=
    Bool.eq_false_iff.mpr fun already => notYet (told.mp already)
  have served (notYet : ¬stopped) (room : s.openCount < limit) :=
    connect_of_room (running notYet) (by rwa [sound.counted, sound.places])
  have sentAway (notYet : ¬stopped) (full : limit ≤ s.openCount) :=
    connect_of_full (running notYet) (by rwa [sound.counted, sound.places])
  have alike : Alike s.connections.length s.stop s :=
    ⟨rfl, rfl, fun number among =>
      ⟨_, List.getElem?_eq_getElem among, List.getElem?_eq_getElem among⟩⟩
  refine
    { counted := sound.counted
      bounded := sound.bounded
      served_iff := ⟨?_, ?_⟩
      served := served
      answered := fun _ _ _ bytes there => deliver_answered there bytes
      sentAway := fun notYet full => ⟨sentAway notYet full, fun later => ?_⟩
      unanswered := fun already => ?_
      left := fun number => ⟨hangUp_isOpenAt s number, ?_⟩
      ended := fun number bytes => ((deliver_proceeds s number bytes).active sound.counted).2
      unnoticed := fun later early => ?_ }
  · rintro ⟨number, arrived, isOpen⟩
    have notYet : ¬stopped := fun already => by
      simp [connect_of_stopped (told.mpr already)] at arrived
    refine ⟨notYet, Nat.lt_of_not_le fun full => ?_⟩
    rw [sentAway notYet full] at arrived isOpen
    obtain rfl := Option.some.inj arrived
    simp [isOpenAt, Connection.isOpen] at isOpen
  · rintro ⟨notYet, room⟩
    refine ⟨_, congrArg Prod.fst (served notYet room), ?_⟩
    simp [served notYet room, isOpenAt, Connection.isOpen, Session.start]
  · have last : s.connect.2.connections[s.connections.length]? =
        some ⟨none, Resp.encodeReply Gate.full⟩ := by
      simp [sentAway notYet full]
    obtain ⟨seen, left, final⟩ := observe_sentAway last later
    exact ⟨isOpenAt_of final, seen⟩
  · have stopped := told.mpr already
    refine ⟨connect_of_stopped stopped, ?_⟩
    rw [stop, Gate.stop, ← stopped]
  · obtain ⟨-, active⟩ := (hangUp_proceeds s number).active sound.counted
    rwa [hangUp_isOpenAt, Bool.not_false, Bool.and_true] at active
  · obtain ⟨seen, after⟩ := alike.observe early
    refine ⟨after.node, after.book, fun number among => ⟨seen ⟨number, among⟩, ?_⟩⟩
    obtain ⟨connection, here, there⟩ := after.there number among
    exact here.trans there.symm

/-- Whatever happened at a server, clients are let in as long as there is a place and the server
was not stopped, and each place is taken and given back as its client comes and goes. -/
theorem clients_admitted (node : Node) (book : AddressBook) (bound : Option String)
    (events : List Event) :
    Admission node.config.maxConnections (.stop ∈ events)
      (observe happen (start node book bound) events).2 := by
  have sound := observe_keeps (Sound node.config.maxConnections)
    (fun _ event sound => sound.happen event) (sound_start node book bound) events
  refine sound.admission ?_
  rw [stopped_iff]
  simp [start, Gate.start]

/-- One place: the second client is sent away, the third gets the place that the first one left, and
the fourth comes after the stop. -/
theorem clients_admitted_in_turn :
    let config : Config := { maxConnections := 1 }
    let node : Node := ⟨config, .start config.nodeId config.peerAddress .empty⟩
    let s := start node .empty none
    let crowded := (observe happen s [.connect]).2
    let left := (observe happen s [.connect, .connect, .hangUp 0]).2
    let stopped := (observe happen s [.connect, .connect, .hangUp 0, .connect, .stop]).2
    seenAt 1 (observe happen crowded.connect.2 [.take 1, .hangUp 0, .take 1]).1 =
      [.reply (.error "ERR max number of clients reached"), .closed] ∧
    (∃ number, left.connect.1 = some number ∧ left.connect.2.isOpenAt number = true) ∧
    stopped.connect = (none, stopped) ∧ stopped.gate.active = 1 := by
  intro config node s crowded left stopped
  have sentAway := (clients_admitted node .empty none [.connect]).sentAway (by simp) (by decide)
  have served := (clients_admitted node .empty none [.connect, .connect, .hangUp 0]).served_iff
  have admission :=
    clients_admitted node .empty none [.connect, .connect, .hangUp 0, .connect, .stop]
  exact ⟨(sentAway.2 [.take 1, .hangUp 0, .take 1]).2, served.mpr ⟨by simp, by decide⟩,
    (admission.unanswered (by simp)).1, admission.counted.trans (by decide)⟩

end Server

end LogKv
