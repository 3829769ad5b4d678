import LogKv.Proofs.MapRefinement
import LogKv.Proofs.SessionReplies

/-! Replies that a waiting session holds back. A session sends what it has written when
nothing it has read is left behind a command it has answered. So a reply may stay behind
while the session waits for its client, and it does exactly if the read that completed
the last command brought bytes that belong to no command yet, and the reply is too short
to leave at once. Bytes that have arrived and are left to the next read keep nothing
behind. -/
namespace LogKv

open Resp (commands readCommand encodeReply)

namespace Outbox

theorem held_write_eq_nil_iff {bytes : Bytes} (some : bytes ≠ []) (o : Outbox) :
    (o.write bytes).held = [] ↔ capacity ≤ bytes.length := by
  obtain ⟨p, -, empty, wrote⟩ := exists_write_eq bytes o
  rw [wrote]
  split
  · next large => exact iff_of_true (empty large) large
  · next small => simp [small, some]

end Outbox

theorem Resp.encodeReply_ne_nil (reply : Reply) : encodeReply reply ≠ [] := by
  cases reply <;> simp [encodeReply, header, bulk]

namespace Session

variable {κ : Type} {handle : κ → Command → Reply × κ} {s : Session} {k : κ}

/-- The last of the replies does not wait for others. -/
def LeavesAtOnce (replies : List Reply) : Prop :=
  ∃ reply, replies.getLast? = some reply ∧ Outbox.capacity ≤ (encodeReply reply).length

theorem held_answer (reply : Reply) :
    (answer reply s).outbox.held = [] ↔ s.waiting = [] ∨ LeavesAtOnce [reply] := by
  have held := Outbox.held_write_eq_nil_iff (Resp.encodeReply_ne_nil reply) s.outbox
  simp only [LeavesAtOnce, List.getLast?_singleton, Option.some.injEq, exists_eq_left', ← held]
  rw [answer]
  dsimp only
  split
  · next nothing => simp [nothing]
  · next waiting => simp [waiting]

theorem leavesAtOnce_append {earlier replies : List Reply} (some : replies ≠ []) :
    LeavesAtOnce (earlier ++ replies) ↔ LeavesAtOnce replies := by
  rw [LeavesAtOnce, List.getLast?_append_of_ne_nil _ some]
  rfl

/-- After some commands have been read whole, what is behind them decides. -/
theorem held_work (s : Session) (k : κ) (opened : s.ending = none)
    (stop : commands.stop s.waiting = .endOfInput) (some : commands.items s.waiting ≠ []) :
    (work handle s k).1.outbox.held = [] ↔
      commands.unread s.waiting = [] ∨
        LeavesAtOnce (answerAll handle k (commands.items s.waiting)).1 := by
  induction hw : s.waiting using commands.induction generalizing s k with
  | stopped waiting fault stopped =>
    subst hw
    exact absurd (commands.items_of_error stopped) some
  | item waiting command rest taken ih =>
    subst hw
    rw [commands.items_of_ok taken, commands.unread_of_ok taken, answerAll_cons,
      work_of_command taken]
    rw [commands.stop_of_ok taken] at stop
    by_cases last : commands.items rest = []
    · have stopped : readCommand rest = .error .endOfInput :=
        stop ▸ commands.read_of_items_nil last
      let s' := answer (handle k command).1 { s with waiting := rest }
      have idle : work handle s' (handle k command).2 = (s', (handle k command).2) :=
        work_of_endOfInput stopped
      rw [idle, last, answerAll, held_answer, commands.unread_of_error stopped]
    · have more : (answerAll handle (handle k command).2 (commands.items rest)).1 ≠ [] := by
        rw [← List.length_pos_iff, answerAll_length, List.length_pos_iff]
        exact last
      rw [← List.singleton_append, leavesAtOnce_append more]
      exact ih (answer (handle k command).1 { s with waiting := rest }) (handle k command).2
        opened stop last rfl

/-- The waiting bytes are what the last reads brought, the first of these from its first byte. -/
def StartsRead (reads : List Bytes) (waiting : Bytes) : Prop :=
  ∃ earlier later, reads = earlier ++ later ∧ later.flatten = waiting

theorem startsRead_snoc {reads : List Bytes} {bytes waiting : Bytes} :
    StartsRead (reads ++ [bytes]) (waiting ++ bytes) ↔ StartsRead reads waiting := by
  constructor
  · rintro ⟨earlier, later, split, flat⟩
    rcases List.eq_nil_or_concat' later with rfl | ⟨later, last, rfl⟩
    · -- Nothing waits, so the last read brought nothing.
      obtain ⟨rfl, -⟩ := List.append_eq_nil_iff.mp flat.symm
      exact ⟨reads, [], (List.append_nil _).symm, rfl⟩
    · rw [← List.append_assoc] at split
      obtain ⟨rfl, same⟩ := List.append_inj' split rfl
      obtain rfl := List.singleton_inj.mp same
      rw [List.flatten_append, List.flatten_singleton] at flat
      exact ⟨earlier, later, rfl, List.append_cancel_right flat⟩
  · rintro ⟨earlier, later, rfl, rfl⟩
    exact ⟨earlier, later ++ [bytes], List.append_assoc _ _ _, by simp⟩

/-- What is shorter than the last read can only start with a read if it is nothing. -/
theorem startsRead_of_shorter {reads : List Bytes} {bytes waiting : Bytes}
    (shorter : waiting.length < bytes.length) :
    StartsRead (reads ++ [bytes]) waiting ↔ waiting = [] := by
  constructor
  · rintro ⟨earlier, later, split, rfl⟩
    rcases List.eq_nil_or_concat' later with rfl | ⟨later, last, rfl⟩
    · rfl
    · rw [← List.append_assoc] at split
      obtain ⟨-, same⟩ := List.append_inj' split rfl
      obtain rfl := List.singleton_inj.mp same
      rw [List.flatten_append, List.length_append, List.flatten_singleton] at shorter
      omega
  · rintro rfl
    exact ⟨reads ++ [bytes], [], (List.append_nil _).symm, rfl⟩

theorem held_receiveAll (handle : κ → Command → Reply × κ) (reads : List Bytes) (k : κ)
    (opened : (receiveAll handle reads k).1.ending = none) :
    (receiveAll handle reads k).1.outbox.held = [] ↔
      StartsRead reads (commands.unread reads.flatten) ∨
        LeavesAtOnce (answerAll handle k (commands.items reads.flatten)).1 := by
  induction reads using List.reverseRecOn with
  | nil =>
    have nothing : commands.unread [] = [] := commands.unread_of_error Resp.readCommand_nil
    exact iff_of_true rfl (.inl ⟨[], [], rfl, nothing.symm⟩)
  | append_singleton reads bytes ih =>
    have before := served_receiveAll handle reads k
    have after := served_receiveAll handle (reads ++ [bytes]) k
    rw [receiveAll_snoc] at opened after ⊢
    generalize receiveAll handle reads k = reached at ih before after opened ⊢
    obtain ⟨s, k'⟩ := reached
    have stop := after.stop opened
    cases ending : s.ending with
    | some _ =>
      rw [receive_of_ended ending, ending] at opened
      cases opened
    | none =>
      have waiting := before.waiting ending
      obtain ⟨items', stop', unread'⟩ := commands.append Resp.readCommand_reads reads.flatten bytes
      rw [List.flatten_append, List.flatten_singleton] at stop ⊢
      rw [items', unread', answerAll_append, ← before.state, ← waiting, receive_of_open ending]
      rw [stop', ← waiting] at stop
      by_cases none : commands.items (s.waiting ++ bytes) = []
      · -- What was read goes behind what was waiting before.
        have stopped : readCommand (s.waiting ++ bytes) = .error .endOfInput :=
          stop ▸ commands.read_of_items_nil none
        rw [work_of_endOfInput stopped, none, answerAll, List.append_nil,
          commands.unread_of_error stopped, startsRead_snoc, waiting]
        exact ih ending
      · have idle : commands.items s.waiting = [] := by
          rw [waiting]
          exact commands.items_of_error (commands.read_unread _)
        have shorter := commands.unread_shorter Resp.readCommand_reads idle none
        have some : (answerAll handle k' (commands.items (s.waiting ++ bytes))).1 ≠ [] := by
          rw [← List.length_pos_iff, answerAll_length, List.length_pos_iff]
          exact none
        rw [startsRead_of_shorter shorter, leavesAtOnce_append some]
        exact held_work { s with waiting := s.waiting ++ bytes } k' ending stop none

/-- What a session holds back while it waits for its client.

Whatever each read brings, all replies to commands that were read are written, but the
last of them may not have been sent. A session that waits holds nothing back exactly if
the bytes that belong to no command yet came in reads of their own, as when there are
none, or if the last reply was long enough to leave at once. Bytes that one read brought
together with the end of the command before them, be they an empty line or a part of the
next command, keep its reply behind until more bytes come. A session that has ended holds
nothing back. -/
theorem held_iff_bytes_behind_command (book : AddressBook) (node : Node) (reads : List Bytes) :
    let session := (receiveAll (Node.handle book) reads node).1
    let replies := (answerAll (Node.handle book) node (commands.items reads.flatten)).1
    (session.ending = none →
      session.outbox.written = replies.flatMap encodeReply ∧
      (session.outbox.held = [] ↔
        StartsRead reads session.waiting ∨ LeavesAtOnce replies)) ∧
    (session.ending ≠ none → session.outbox.held = []) := by
  intro session replies
  have served := served_receiveAll (Node.handle book) reads node
  refine ⟨fun opened => ⟨?_, ?_⟩, served.sent⟩
  · have written := served.written
    rw [served.stop opened, Resp.Fault.farewell, List.append_nil] at written
    exact written
  · rw [served.waiting opened]
    exact held_receiveAll _ reads node opened

/-- An empty line that is read together with the command before it keeps the reply from a client
that waits for it. Read by itself it does not. -/
theorem reply_held_behind_empty_line :
    let get : Bytes := [71, 69, 84, 32, 107] ++ Bytes.crlf
    let node := (Node.holding {} .empty).adjust Engine.becomeLeader
    let (together, _) := receiveAll (Node.handle .empty) [get ++ Bytes.crlf] node
    let (apart, _) := receiveAll (Node.handle .empty) [get, Bytes.crlf] node
    (together.ending = none ∧ together.waiting = Bytes.crlf ∧
      together.outbox.output = [] ∧ together.outbox.held = encodeReply .null) ∧
    apart.ending = none ∧ apart.waiting = Bytes.crlf ∧
      apart.outbox.output = encodeReply .null ∧ apart.outbox.held = [] := by
  intro get node
  let handle := Node.handle .empty
  have taken (line : Bytes) (blank : line = [] ∨ line = Bytes.crlf) :
      readCommand (get ++ line) = .ok ((Request.get [107]).command, line) := by
    rcases blank with rfl | rfl <;> exact (Resp.readCommand_eq _).trans (by decide +kernel)
  have ended : readCommand Bytes.crlf = .error .endOfInput :=
    (Resp.readCommand_eq _).trans Resp.readCommand_nil
  have valid : Request.ofCommand (Request.get [107]).command = .ok (.get [107]) := by
    decide +kernel
  have answered : handle node (Request.get [107]).command = (.null, node) := by
    rw [show handle = Node.handle .empty from rfl, Node.handle, Replica.handle_of_get valid rfl]
    rfl
  have together : receiveAll handle [get ++ Bytes.crlf] node =
      (answer .null { start with waiting := Bytes.crlf }, node) :=
    calc receiveAll handle [get ++ Bytes.crlf] node
      _ = work handle { start with waiting := get ++ Bytes.crlf } node := rfl
      _ = work handle (answer .null { start with waiting := Bytes.crlf }) node := by
          rw [work_of_command (taken _ (.inr rfl)), answered]
      _ = _ := work_of_endOfInput ended
  have apart : receiveAll handle [get, Bytes.crlf] node =
      ({ answer .null start with waiting := Bytes.crlf }, node) :=
    calc receiveAll handle [get, Bytes.crlf] node
      _ = (work handle { start with waiting := get ++ [] } node).1.receive handle Bytes.crlf
          (work handle { start with waiting := get ++ [] } node).2 := rfl
      _ = (answer .null start).receive handle Bytes.crlf node := by
          rw [work_of_command (taken _ (.inl rfl)), answered,
            work_of_endOfInput Resp.readCommand_nil]
          rfl
      _ = work handle { answer .null start with waiting := Bytes.crlf } node := rfl
      _ = _ := work_of_endOfInput ended
  rw [together, apart]
  decide +kernel

end Session

end LogKv
