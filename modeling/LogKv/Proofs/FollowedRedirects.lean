import LogKv.Client.Arguments
import LogKv.Proofs.CheckedCommands
import LogKv.Proofs.ClientVisits
import LogKv.Proofs.CommandRoundTrip
import LogKv.Proofs.HeldReplies
import LogKv.Proofs.Redirects

/-! A client that follows a redirect. What a client sends is read as the request it was asked to
make. A node that does not lead answers that with the address recorded for its leader, and stays
as it was. So a client that follows the redirect comes to what it would have come to at that
address, had it asked there in the first place. -/
namespace LogKv

open Resp (commands readCommand encodeCommand encodeReply)

/-! ## The command of a request -/

namespace Request

theorem command_parts (request : Request) :
    request.command = ⟨Utf8.encode request.verb.name :: request.operands⟩ := by
  cases request <;> rfl

/-- The command of a request asks for just that. -/
theorem ofCommand_command (request : Request) : ofCommand request.command = .ok request := by
  have spelled (verb : Verb) : verb.Spelled (Utf8.encode verb.name) := by
    cases verb <;> decide
  rw [command_parts]
  exact Checked.eq (.passed (spelled request.verb))

theorem sendable_command {request : Request}
    (short : ∀ operand ∈ request.operands, operand.length ≤ Resp.maxBulk) :
    request.command.Sendable := by
  have named (verb : Verb) : (Utf8.encode verb.name).length ≤ Resp.maxBulk := by
    cases verb <;> decide
  rw [command_parts]
  refine ⟨?_, List.forall_mem_cons.mpr ⟨named request.verb, short⟩⟩
  rw [List.length_cons, request.operands_length]
  cases request.verb <;> decide

end Request

/-! ## One command over a connection -/

/-- A client that has sent one command and waits gets the whole reply to it. -/
theorem Session.receiveAll_command {κ : Type} (handle : κ → Command → Reply × κ)
    {chunks : List Bytes} {command : Command} (sendable : command.Sendable)
    (sent : chunks.flatten = encodeCommand command) (k : κ) :
    (receiveAll handle chunks k).1.outbox.output = encodeReply (handle k command).1 ∧
      (receiveAll handle chunks k).2 = (handle k command).2 := by
  have back : ∀ c ∈ [command], ∀ rest, readCommand (encodeCommand c ++ rest) = .ok (c, rest) := by
    intro c member
    obtain rfl := List.mem_singleton.mp member
    exact Resp.readCommand_reads.ok (Resp.holdsCommand_encode sendable)
  obtain ⟨items, stop, unread⟩ := commands.encoded encodeCommand id back Resp.readCommand_nil
  rw [List.flatMap_singleton, ← sent] at items stop unread
  have served := served_receiveAll handle chunks k
  have state := served.state
  have written := served.written
  have ending := served.ending
  rw [items] at state
  rw [items, stop] at written
  rw [stop] at ending
  -- No byte stands behind the command, so its reply is not held back.
  have nothing : (receiveAll handle chunks k).1.outbox.held = [] := by
    rw [held_receiveAll handle chunks k ending, unread]
    exact .inl ⟨chunks, [], (List.append_nil chunks).symm, rfl⟩
  rw [Outbox.written, nothing, List.append_nil] at written
  refine ⟨written.trans ?_, state⟩
  simp [answerAll, Resp.Fault.farewell]

/-- A node that sends a client elsewhere stays as it is. -/
theorem Replica.Directs.handle {κ : Type} {replica : Replica κ} {book : AddressBook} {k : κ}
    {command : Command} {address : String} (directs : replica.Directs book k command address) :
    replica.handle book k command = (.moved address, k) := by
  obtain ⟨request, valid⟩ := directs.valid
  rcases replica.handle_moved_or_plain book k command with ⟨own, directs', moved⟩ | ⟨none, -⟩
  · rw [← directs'.unique directs]
    refine Prod.ext moved ?_
    rw [Replica.handle_of_not_leader valid directs.other]
  · exact absurd directs (none address)

theorem Node.handle_moved {book : AddressBook} {node : Node} {leader : Leader} {address : String}
    (request : Request) (other : node.log.engine.role ≠ .leader)
    (pointer : node.log.engine.leader = some leader)
    (found : book.find? leader.id = some address) :
    node.handle book request.command = (.moved address, node) := by
  have directs : node.replica.Directs book node.log request.command address :=
    ⟨⟨request, request.ofCommand_command⟩, other, leader, pointer, found⟩
  rw [Node.handle, directs.handle]

namespace Client

variable {ω : Type}

/-- A node in a world, and the address book it uses. -/
structure Site (ω : Type) where
  node : ω → Node
  book : ω → AddressBook
  /-- Puts a node in the place of this one. -/
  place : Node → ω → ω
  place_node (w : ω) : place (node w) w = w

/-- Whoever asks at this address now has a session with the node: the bytes arrive in chunks of
whatever size, and what the session sends while it waits for more is the answer. -/
def Site.Serves (site : Site ω) (ask : String → Bytes → ω → Except Fault Bytes × ω)
    (address : String) (w : ω) : Prop :=
  ∀ bytes, ∃ chunks : List Bytes, chunks.flatten = bytes ∧
    let (session, node) := Session.receiveAll (Node.handle (site.book w)) chunks (site.node w)
    ask address bytes w = (.ok session.outbox.output, site.place node w)

variable {ask : String → Bytes → ω → Except Fault Bytes × ω} {site : Site ω}
  {server address : String} {request : Request} {w : ω}

theorem Site.Serves.ask_command {command : Command} (serves : site.Serves ask server w)
    (sendable : command.Sendable) :
    let (reply, node) := (site.node w).handle (site.book w) command
    ask server (encodeCommand command) w = (.ok (encodeReply reply), site.place node w) := by
  obtain ⟨chunks, sent, asked⟩ := serves (encodeCommand command)
  obtain ⟨output, after⟩ :=
    Session.receiveAll_command (Node.handle (site.book w)) sendable sent (site.node w)
  simp only [output, after] at asked
  exact asked

theorem Site.Serves.ask_moved {leader : Leader} (serves : site.Serves ask server w)
    (short : ∀ operand ∈ request.operands, operand.length ≤ Resp.maxBulk)
    (other : (site.node w).log.engine.role ≠ .leader)
    (pointer : (site.node w).log.engine.leader = some leader)
    (found : (site.book w).find? leader.id = some address) :
    ask server (encodeCommand request.command) w = (.ok (encodeReply (.moved address)), w) := by
  have moved := Node.handle_moved request other pointer found
  have asked := serves.ask_command (Request.sendable_command short)
  rw [moved] at asked
  exact asked.trans (congrArg (Prod.mk _) (site.place_node w))

theorem turn?_moved (unbroken : '\r' ∉ address.toList ∧ '\n' ∉ address.toList)
    (fits : (Reply.moved address).Sendable) :
    turn? true (.ok (encodeReply (.moved address))) = some address := by
  have sent : (Reply.moved address).Sends [] address :=
    Reply.sends_moved.mpr ⟨fits, (Text.flat_eq_self unbroken).symm⟩
  obtain ⟨reply, read, redirect⟩ := sent
  rw [List.append_nil] at read
  generalize encodeReply (.moved address) = bytes at read ⊢
  exact turn?_of_redirect read redirect

/-- To follow a redirect is to ask there in the first place. -/
theorem visit_followed
    (moved : ask server (encodeCommand request.command) w =
      (.ok (encodeReply (.moved address)), w))
    (turns : turn? true (.ok (encodeReply (.moved address))) = some address) :
    let bytes := encodeCommand request.command
    let followed := visit ask ⟨server, true, request⟩ w
    let direct := visit ask ⟨address, false, request⟩ w
    followed.exchanges = ⟨server, bytes, .ok (encodeReply (.moved address))⟩ :: direct.exchanges ∧
    direct.exchanges = [⟨address, bytes, (ask address bytes w).1⟩] ∧
    followed.report =
      { direct.report with errors := redirected address ++ direct.report.errors } ∧
    followed.world = direct.world := by
  simp only [visit_eq, moved, turns, turn?_of_not_follow]
  exact ⟨trivial, trivial, reportOf_errors _ _, trivial⟩

/-- To follow a redirect with the client is to ask the leader.

The client sends a command that is read as the request it was asked to make, whatever the
operands hold, and it succeeds exactly if it could read the last reply and that is no error. If
it is to follow redirects, and the node at the server it was given does not lead but knows
where its leader takes clients, it sends the same bytes to just that address and comes to what
it would have come to there, but for the line that says where it went. It turns nowhere else,
be the second reply another redirect or not. -/
theorem follow_asks_leader (ask : String → Bytes → ω → Except Fault Bytes × ω) (w : ω)
    {verb : Verb} {texts : List String} (made : requestOf? verb texts = some request)
    (short : ∀ text ∈ texts, text.utf8ByteSize ≤ Resp.maxBulk) :
    let bytes := encodeCommand request.command
    (request.verb = verb ∧ request.operands = texts.map Utf8.encode) ∧
    (∀ rest, ∃ command, readCommand (bytes ++ rest) = .ok (command, rest) ∧
      Request.ofCommand command = .ok request) ∧
    (∀ server follow,
      let visited := visit ask ⟨server, follow, request⟩ w
      (visited.report.code = success ↔ ∃ last reply, visited.exchanges.getLast? = some last ∧
        last.reply = .ok reply ∧ reply.isError = false) ∧
      (∀ exchange ∈ visited.exchanges, exchange.sent = bytes) ∧ visited.exchanges.length ≤ 2) ∧
    ∀ (site : Site ω) (server : String) (leader : Leader) (address : String),
      site.Serves ask server w → (site.node w).log.engine.role ≠ .leader →
      (site.node w).log.engine.leader = some leader →
      (site.book w).find? leader.id = some address →
      '\r' ∉ address.toList → '\n' ∉ address.toList → (Reply.moved address).Sendable →
      let followed := visit ask ⟨server, true, request⟩ w
      let direct := visit ask ⟨address, false, request⟩ w
      followed.exchanges =
        ⟨server, bytes, .ok (encodeReply (.moved address))⟩ :: direct.exchanges ∧
      direct.exchanges = [⟨address, bytes, (ask address bytes w).1⟩] ∧
      followed.report =
        { direct.report with errors := redirected address ++ direct.report.errors } ∧
      followed.world = direct.world := by
  intro bytes
  have asked := Request.ofOperands?_eq_some_iff.mp made
  have fits : ∀ operand ∈ request.operands, operand.length ≤ Resp.maxBulk := by
    rw [asked.2, List.forall_mem_map]
    exact fun text member => Utf8.encode_length text ▸ short text member
  have read := Resp.readCommand_reads.ok
    (Resp.holdsCommand_encode (Request.sendable_command fits))
  refine ⟨asked, fun rest => ⟨_, read rest, request.ofCommand_command⟩,
    fun server follow => visit_exchanges ask ⟨server, follow, request⟩ w, ?_⟩
  intro site server leader address serves other pointer found noReturn noFeed sendable
  exact visit_followed (serves.ask_moved fits other pointer found)
    (turn?_moved ⟨noReturn, noFeed⟩ sendable)

/-- A value of two lines that looks like a frame, set through a follower. -/
theorem follow_asks_leader_with_frame :
    let book := AddressBook.empty.register "n2" "host:2"
    let follower := (Node.holding {} .empty).adjust (Engine.setLeader (some ⟨"n2", "peer:7"⟩))
    let leader := (Node.holding {} .empty).adjust Engine.becomeLeader
    let ask (address : String) (bytes : Bytes) (w : Node × Node) :
        Except Fault Bytes × Node × Node :=
      if address = "host:2" then
        let (session, node) := Session.receiveAll (Node.handle book) [bytes] w.2
        (.ok session.outbox.output, w.1, node)
      else
        let (session, node) := Session.receiveAll (Node.handle book) [bytes] w.1
        (.ok session.outbox.output, node, w.2)
    let set := Request.set (Utf8.encode "k 1") (Utf8.encode "$1\r\n+")
    let followed := visit ask ⟨"host:1", true, set⟩ (follower, leader)
    requestOf? .set ["k 1", "$1\r\n+"] = some set ∧
    followed.report = ⟨success, "OK\n", "-> Redirected to host:2\n"⟩ ∧
    followed.exchanges.map Exchange.address = ["host:1", "host:2"] ∧
    followed.world.1.store = .empty ∧
    followed.world.2.store.get? (Utf8.encode "k 1") = some (Utf8.encode "$1\r\n+") := by
  intro book follower leader ask set followed
  have made : requestOf? .set ["k 1", "$1\r\n+"] = some set := by decide +kernel
  have short : ∀ text ∈ ["k 1", "$1\r\n+"], text.utf8ByteSize ≤ Resp.maxBulk := by decide
  have sendable : set.command.Sendable := by decide +kernel
  let near : Site (Node × Node) :=
    ⟨Prod.fst, fun _ => book, fun node w => (node, w.2), fun _ => rfl⟩
  let far : Site (Node × Node) :=
    ⟨Prod.snd, fun _ => book, fun node w => (w.1, node), fun _ => rfl⟩
  have nearServes : near.Serves ask "host:1" (follower, leader) := fun bytes =>
    ⟨[bytes], List.flatten_singleton, if_neg (by decide)⟩
  have farServes : far.Serves ask "host:2" (follower, leader) := fun bytes =>
    ⟨[bytes], List.flatten_singleton, if_pos rfl⟩
  obtain ⟨-, -, -, follow⟩ := follow_asks_leader ask (follower, leader) made short
  obtain ⟨exchanges, -, report, world⟩ := follow near "host:1" ⟨"n2", "peer:7"⟩ "host:2"
    nearServes (by decide) rfl (by decide) (by decide) (by decide) (by decide)
  have accepted : (leader.handle book set.command).1 = .ok := by decide +kernel
  have stored : (leader.handle book set.command).2.store.get? (Utf8.encode "k 1") =
      some (Utf8.encode "$1\r\n+") := by decide +kernel
  have second : ask "host:2" (encodeCommand set.command) (follower, leader) =
      (.ok (encodeReply .ok), follower, (leader.handle book set.command).2) :=
    accepted ▸ farServes.ask_command sendable
  have direct : visit ask ⟨"host:2", false, set⟩ (follower, leader) =
      ⟨reportOf "" (.ok (encodeReply .ok)),
        [⟨"host:2", encodeCommand set.command, .ok (encodeReply .ok)⟩],
        follower, (leader.handle book set.command).2⟩ := by
    simp only [visit_eq, turn?_of_not_follow, second]
  rw [direct] at exchanges report world
  refine ⟨made, report.trans (by decide +kernel), ?_, ?_, ?_⟩
  · rw [exchanges]
    rfl
  · rw [world]
    rfl
  · rw [world]
    exact stored

end Client

end LogKv
