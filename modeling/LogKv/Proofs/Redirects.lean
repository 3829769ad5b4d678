import LogKv.Client
import LogKv.Proofs.Rehearsals
import LogKv.Proofs.ReplyRoundTrip

/-! Redirects. A client is sent to another address exactly when its command is valid,
the node does not lead, and an address is recorded for the node that the leader pointer
names. No text can pass for a redirect, whoever wrote it: every failure starts with a
word of its own, on the wire too, where line breaks are shown as spaces. -/
namespace LogKv

/-! ## Replies that are no redirects -/

namespace Reply

theorem splitSpace_of_word {word : List Char} (whole : ' ' ∉ word) (rest : List Char) :
    splitSpace (word ++ ' ' :: rest) = (word, some rest) := by
  have kept : ∀ c ∈ word, (c != ' ') = true := by
    intro c member
    simp only [bne_iff_ne]
    rintro rfl
    exact whole member
  rw [splitSpace, List.dropWhile_append_of_pos kept, List.takeWhile_append_of_pos kept]
  simp

theorem redirectAddress?_moved (address : String) :
    (moved address).redirectAddress? = some address := by
  have text : s!"MOVED {redirectIndex} {address}".toList =
      "MOVED".toList ++ ' ' :: ("-1".toList ++ ' ' :: address.toList) :=
    String.toList_append
  rw [moved, redirectAddress?, text, splitSpace_of_word (by decide)]
  dsimp only
  rw [if_pos rfl, splitSpace_of_word (by decide), Option.map_some, String.ofList_toList]

theorem redirectAddress?_failure (description : String) :
    (failure description).redirectAddress? = none := by
  have text : s!"ERR {description}".toList = "ERR".toList ++ ' ' :: description.toList :=
    String.toList_append
  rw [failure, redirectAddress?, text, splitSpace_of_word (by decide)]
  exact if_neg (by decide)

/-- A reply that says something else than where to go: a result, or a failure. -/
def Plain (reply : Reply) : Prop :=
  reply.isError = false ∨ ∃ description, reply = failure description

theorem Plain.redirectAddress? {reply : Reply} (plain : reply.Plain) :
    reply.redirectAddress? = none := by
  rcases plain with result | ⟨description, rfl⟩
  · cases reply with
    | error text => cases result
    | status | integer | value | null => rfl
  · exact redirectAddress?_failure description

theorem ofFault_addressUnknown (id : String) :
    ofFault (.addressUnknown id) =
      .error ("ERR no client address recorded for node '" ++ id ++ "'") := by
  have text : "ERR " ++ ("no client address recorded for node '" ++ id ++ "'") =
      "ERR no client address recorded for node '" ++ id ++ "'" := by
    rw [← String.append_assoc, ← String.append_assoc]
    rfl
  exact congrArg error text

theorem flat_moved (address : String) : (moved address).flat = moved (Text.flat address) := by
  have front : Text.flat "MOVED -1 " = "MOVED -1 " := Text.flat_eq_self (by decide)
  have text : Text.flat ("MOVED -1 " ++ address) = "MOVED -1 " ++ Text.flat address := by
    rw [Text.flat_append, front]
  exact congrArg error text

theorem flat_failure (description : String) :
    (failure description).flat = failure (Text.flat description) := by
  have front : Text.flat "ERR " = "ERR " := Text.flat_eq_self (by decide)
  have text : Text.flat ("ERR " ++ description) = "ERR " ++ Text.flat description := by
    rw [Text.flat_append, front]
  exact congrArg error text

/-- No line break turns a failure into a redirect. -/
theorem Plain.flat {reply : Reply} (plain : reply.Plain) : reply.flat.Plain := by
  rcases plain with result | ⟨description, rfl⟩
  · cases reply with
    | error text => cases result
    | status | integer | value | null => exact .inl rfl
  · exact .inr ⟨_, flat_failure description⟩

end Reply

/-! ## On the wire -/

theorem Client.replyIn_encode {reply read : Reply} {rest : Bytes} :
    replyIn (Resp.encodeReply reply ++ rest) = .ok read ↔ reply.Sendable ∧ read = reply.flat := by
  by_cases sendable : reply.Sendable
  · rw [replyIn, Resp.readReply_encode sendable]
    simp [sendable, eq_comm]
  · obtain ⟨fault, refused, -⟩ := Resp.readReply_of_not_sendable sendable rest
    rw [replyIn, refused]
    simp [sendable]

/-- A client that reads the reply off the wire, with `rest` behind it, finds this address in it. -/
def Reply.Sends (reply : Reply) (rest : Bytes) (address : String) : Prop :=
  ∃ read, Client.replyIn (Resp.encodeReply reply ++ rest) = .ok read ∧
    read.redirectAddress? = some address

theorem Reply.sends_moved {own address : String} {rest : Bytes} :
    (moved own).Sends rest address ↔ (moved own).Sendable ∧ address = Text.flat own := by
  simp only [Sends, Client.replyIn_encode]
  constructor
  · rintro ⟨read, ⟨sendable, rfl⟩, found⟩
    rw [flat_moved, redirectAddress?_moved] at found
    exact ⟨sendable, (Option.some.inj found).symm⟩
  · rintro ⟨sendable, rfl⟩
    refine ⟨_, ⟨sendable, rfl⟩, ?_⟩
    rw [flat_moved, redirectAddress?_moved]

theorem Reply.Plain.not_sends {reply : Reply} (plain : reply.Plain) (rest : Bytes)
    (address : String) : ¬reply.Sends rest address := by
  rintro ⟨read, sent, found⟩
  obtain ⟨-, rfl⟩ := Client.replyIn_encode.mp sent
  rw [plain.flat.redirectAddress?] at found
  cases found

/-! ## One command -/

namespace Replica

variable {κ : Type} {replica : Replica κ} {book : AddressBook} {k : κ} {command : Command}
  {address : String}

/-- The client of this command is to turn to this address. -/
structure Directs (replica : Replica κ) (book : AddressBook) (k : κ) (command : Command)
    (address : String) : Prop where
  valid : ∃ request, Request.ofCommand command = .ok request
  other : replica.role k ≠ .leader
  recorded : ∃ leader, replica.leader k = some leader ∧ book.find? leader.id = some address

theorem Directs.unique {address' : String} (directs : replica.Directs book k command address)
    (directs' : replica.Directs book k command address') : address = address' := by
  obtain ⟨leader, pointer, found⟩ := directs.recorded
  obtain ⟨leader', pointer', found'⟩ := directs'.recorded
  obtain rfl := Option.some.inj (pointer.symm.trans pointer')
  exact Option.some.inj (found.symm.trans found')

theorem readReply_plain (replica : Replica κ) (k : κ) (key : Bytes) :
    (replica.readReply k key).Plain := by
  unfold readReply
  split
  · exact .inl rfl
  · exact .inl rfl
  · exact .inr ⟨_, rfl⟩

theorem ofVerdict_plain {request : Request} {entry : Entry} {done : Reply}
    (writes : request.write? = some (entry, done)) (verdict : Except Fault (Option Bytes)) :
    (Reply.ofVerdict done verdict).Plain := by
  cases verdict with
  | ok value => exact .inl (Request.write?_succeeds writes)
  | error fault => exact .inr ⟨_, rfl⟩

/-- A command gets a redirect if there is an address to turn to, and otherwise a plain reply. -/
theorem handle_moved_or_plain (replica : Replica κ) (book : AddressBook) (k : κ)
    (command : Command) :
    let reply := (replica.handle book k command).1
    (∃ address, replica.Directs book k command address ∧ reply = .moved address) ∨
      (∀ address, ¬replica.Directs book k command address) ∧ reply.Plain := by
  cases command.course (replica.role k) with
  | refused invalid =>
    rw [handle_of_invalid invalid]
    refine .inr ⟨fun address directs => ?_, .inr ⟨_, rfl⟩⟩
    obtain ⟨request, valid⟩ := directs.valid
    cases invalid.symm.trans valid
  | redirected valid other =>
    rw [handle_of_not_leader valid other]
    dsimp only
    have sent := replica.redirect_redirection book k
    generalize replica.redirect book k = reply at sent
    cases sent with
    | leaderless pointer =>
      refine .inr ⟨fun address directs => ?_, .inr ⟨_, rfl⟩⟩
      obtain ⟨leader, named, -⟩ := directs.recorded
      cases pointer.symm.trans named
    | unrecorded pointer missing =>
      refine .inr ⟨fun address directs => ?_, .inr ⟨_, rfl⟩⟩
      obtain ⟨leader, named, found⟩ := directs.recorded
      obtain rfl := Option.some.inj (pointer.symm.trans named)
      cases missing.symm.trans found
    | recorded pointer found =>
      exact .inl ⟨_, ⟨⟨_, valid⟩, other, _, pointer, found⟩, rfl⟩
  | read valid leads =>
    rw [handle_of_get valid leads]
    exact .inr ⟨fun address directs => directs.other leads, readReply_plain replica k _⟩
  | written valid writes leads =>
    rw [handle_of_write valid writes leads]
    exact .inr ⟨fun address directs => directs.other leads, ofVerdict_plain writes _⟩

theorem redirectAddress?_handle :
    (replica.handle book k command).1.redirectAddress? = some address ↔
      replica.Directs book k command address := by
  rcases replica.handle_moved_or_plain book k command with ⟨own, directs, moved⟩ | ⟨none, plain⟩
  · rw [moved, Reply.redirectAddress?_moved, Option.some.injEq]
    exact ⟨fun same => same ▸ directs, directs.unique⟩
  · rw [plain.redirectAddress?]
    exact iff_of_false nofun (none address)

theorem sends_handle {rest : Bytes} :
    (replica.handle book k command).1.Sends rest address ↔
      ∃ own, replica.Directs book k command own ∧ (Reply.moved own).Sendable ∧
        address = Text.flat own := by
  rcases replica.handle_moved_or_plain book k command with ⟨own, directs, moved⟩ | ⟨none, plain⟩
  · rw [moved, Reply.sends_moved]
    constructor
    · exact fun sent => ⟨own, directs, sent⟩
    · rintro ⟨own', directs', sent⟩
      exact directs.unique directs' ▸ sent
  · refine iff_of_false (plain.not_sends rest address) ?_
    rintro ⟨own, directs, -⟩
    exact none own directs

end Replica

/-! ## Histories -/

namespace Rehearsed

variable {σ : Type}

/-- After this history, which starts with an empty address book, the client of this command is to
turn to this address: the command is valid, the role that was set last is not that of a leader,
the leader pointer that was set last names a node, and the last registration for that node is of
this address. -/
structure Directed (node : Rehearsed σ) (acts : List (Act σ)) (command : Command)
    (address : String) : Prop where
  valid : ∃ request, Request.ofCommand command = .ok request
  other : roleAfter node.role acts ≠ .leader
  recorded : ∃ leader, leaderAfter node.leader acts = some leader ∧
    LastRegistered leader.id address acts

variable {storage : Storage σ} {timeout : Duration} {node : Rehearsed σ} {acts : List (Act σ)}
  {command : Command} {id address : String}

theorem find?_eq_some_iff :
    (Stage.after storage timeout ⟨node, .empty⟩ acts).book.find? id = some address ↔
      LastRegistered id address acts := by
  have empty : AddressBook.empty.find? id = none := rfl
  rw [after_find?, empty]
  simp

theorem find?_eq_none (unregistered : ∀ act ∈ acts, ∀ address, act ≠ .register id address) :
    (Stage.after storage timeout ⟨node, .empty⟩ acts).book.find? id = none := by
  rw [Option.eq_none_iff_forall_ne_some]
  intro address found
  obtain ⟨before, last, after, rfl, rfl, -⟩ := find?_eq_some_iff.mp found
  exact unregistered _ (by simp) address rfl

theorem directs_iff (storage : Storage σ) (timeout : Duration) {stage : Stage σ}
    (reached : Stage.after storage timeout ⟨node, .empty⟩ acts = stage) :
    (replica storage timeout).Directs stage.book stage.node command address ↔
      Directed node acts command address := by
  subst reached
  have role := after_role storage timeout ⟨node, .empty⟩ acts
  have leader := after_leader storage timeout ⟨node, .empty⟩ acts
  constructor
  · rintro ⟨valid, other, named, pointer, found⟩
    exact ⟨valid, role ▸ other, named, leader ▸ pointer, find?_eq_some_iff.mp found⟩
  · rintro ⟨valid, other, named, pointer, registered⟩
    exact ⟨valid, (role ▸ other :), named, (leader ▸ pointer :), find?_eq_some_iff.mpr registered⟩

/-- A redirect tells the address that is recorded for the leader now, and nothing else passes for
a redirect.

After any history the reply to a command is a redirect to an address exactly if the command
is valid, the node does not lead, and the leader pointer names the node for which the address
was registered last. Without a pointer, and without a registration, the reply says which of
them is missing. What a client finds in the bytes of the reply is the same address with its
line breaks shown as spaces, if that fits on a line; so it is the address itself if that has
no line breaks, and no other text is ever found there. -/
theorem redirects_exactly (storage : Storage σ) (timeout : Duration) (node : Rehearsed σ)
    (acts : List (Act σ)) (command : Command) :
    let stage := Stage.after storage timeout ⟨node, .empty⟩ acts
    let reply := (stage.handle storage timeout command).1
    (∀ address, reply.redirectAddress? = some address ↔ Directed node acts command address) ∧
    ((∃ request, Request.ofCommand command = .ok request) → roleAfter node.role acts ≠ .leader →
      (leaderAfter node.leader acts = none → reply = .error "ERR leader is unknown") ∧
      ∀ leader, leaderAfter node.leader acts = some leader →
        (∀ act ∈ acts, ∀ address, act ≠ .register leader.id address) →
        reply = .error ("ERR no client address recorded for node '" ++ leader.id ++ "'")) ∧
    (∀ rest address, reply.Sends rest address ↔
      ∃ own, Directed node acts command own ∧ (Reply.moved own).Sendable ∧
        address = Text.flat own) ∧
    ((∀ own, Directed node acts command own →
        '\r' ∉ own.toList ∧ '\n' ∉ own.toList ∧ (Reply.moved own).Sendable) →
      ∀ rest address, reply.Sends rest address ↔ Directed node acts command address) := by
  intro stage reply
  have answered : reply = ((replica storage timeout).handle stage.book stage.node command).1 := rfl
  have directed {address : String} : (replica storage timeout).Directs stage.book stage.node command
      address ↔ Directed node acts command address := directs_iff storage timeout rfl
  have sends (rest : Bytes) (address : String) : reply.Sends rest address ↔
      ∃ own, Directed node acts command own ∧ (Reply.moved own).Sendable ∧
        address = Text.flat own := by
    simp only [← directed, answered, Replica.sends_handle]
  refine ⟨fun address => ?_, ?_, sends, ?_⟩
  · rw [← directed, answered, Replica.redirectAddress?_handle]
  · rintro ⟨request, valid⟩ other
    have role := after_role storage timeout ⟨node, .empty⟩ acts
    have leader := after_leader storage timeout ⟨node, .empty⟩ acts
    have follows : (replica storage timeout).role stage.node ≠ .leader :=
      fun leads => other (role.symm.trans leads)
    rw [answered, Replica.handle_of_not_leader valid follows, ← leader]
    have sent := (replica storage timeout).redirect_redirection stage.book stage.node
    generalize (replica storage timeout).redirect stage.book stage.node = told at sent
    refine ⟨fun none => ?_, fun named pointer unregistered => ?_⟩
    · cases sent with
      | leaderless => rfl
      | unrecorded pointer | recorded pointer => cases none.symm.trans pointer
    · cases sent with
      | leaderless none => cases none.symm.trans pointer
      | unrecorded pointer' =>
        obtain rfl := Option.some.inj (pointer.symm.trans pointer')
        exact Reply.ofFault_addressUnknown named.id
      | recorded pointer' found =>
        obtain rfl := Option.some.inj (pointer.symm.trans pointer')
        cases (find?_eq_none unregistered).symm.trans found
  · -- The wire changes nothing but line breaks, and the recorded address has none.
    intro unbroken rest address
    rw [sends]
    constructor
    · rintro ⟨own, directed, -, rfl⟩
      obtain ⟨noReturn, noFeed, -⟩ := unbroken own directed
      rw [Text.flat_eq_self ⟨noReturn, noFeed⟩]
      exact directed
    · intro directed
      obtain ⟨noReturn, noFeed, fits⟩ := unbroken address directed
      exact ⟨address, directed, fits, (Text.flat_eq_self ⟨noReturn, noFeed⟩).symm⟩

/-- A follower hears of its leader before it knows where to send clients, and then learns two
addresses for it, one after the other. -/
theorem redirects_exactly_overwritten :
    let timeout := Duration.ofMillis 5
    let get := (Request.get [107]).command
    let early : List (Act Store) := [.role .follower, .leader (some ⟨"n2", "peer:7"⟩)]
    let late := early ++ [.register "n2" "old:1", .register "n2" "new 2"]
    let reply (acts : List (Act Store)) :=
      ((Stage.after .memory timeout ⟨.start .empty, .empty⟩ acts).handle .memory timeout get).1
    reply early = .error "ERR no client address recorded for node 'n2'" ∧
    (reply late).redirectAddress? = some "new 2" ∧
    (reply late).Sends [] "new 2" ∧ ¬(reply late).Sends [] "old:1" := by
  intro timeout get early late reply
  have valid : Request.ofCommand get = .ok (.get [107]) := by decide +kernel
  obtain ⟨-, missing, -, -⟩ := redirects_exactly .memory timeout (.start .empty) early get
  obtain ⟨exact, -, -, sends⟩ := redirects_exactly .memory timeout (.start .empty) late get
  have directed : Directed (.start .empty) late get "new 2" :=
    ⟨⟨_, valid⟩, by decide, ⟨"n2", "peer:7"⟩, rfl,
      early ++ [.register "n2" "old:1"], _, [], rfl, rfl, by simp⟩
  have found := (exact "new 2").mpr directed
  have only {own : String} (other : Directed (.start .empty) late get own) : own = "new 2" :=
    Option.some.inj (((exact own).mpr other).symm.trans found)
  have wire := sends fun own other => only other ▸ by decide
  refine ⟨?_, found, (wire [] _).mpr directed, fun sent => ?_⟩
  · refine ((missing ⟨_, valid⟩ (by decide)).2 ⟨"n2", "peer:7"⟩ rfl ?_).trans (by decide)
    simp [early]
  · exact absurd (only ((wire [] _).mp sent)) (by decide)

end Rehearsed

end LogKv
