import Mathlib.Data.List.Induction
import LogKv.Node
import LogKv.Session
import LogKv.Proofs.ArrivingStreams

/-! What a session does with the bytes of its client. However they are cut into
chunks, the session answers the commands that can be read from them, in order, and
the node goes through those commands and no others. The first frame that is broken
gets one more reply and ends the session; a frame that is cut short gets none.

`Session.Served` says what a session has come to by the bytes that have arrived, and
every chunk preserves it. -/
namespace LogKv

open Resp (commands readCommand encodeReply)

variable {κ : Type}

/-! ## Commands one after another -/

/-- The replies to commands that are answered one after another, and the state after them. -/
def answerAll (handle : κ → Command → Reply × κ) : κ → List Command → List Reply × κ
  | k, [] => ([], k)
  | k, command :: later =>
    let (reply, k) := handle k command
    let (replies, k) := answerAll handle k later
    (reply :: replies, k)

variable {handle : κ → Command → Reply × κ}

theorem answerAll_cons (k : κ) (command : Command) (later : List Command) :
    answerAll handle k (command :: later) =
      ((handle k command).1 :: (answerAll handle (handle k command).2 later).1,
        (answerAll handle (handle k command).2 later).2) := rfl

theorem answerAll_append (k : κ) (commands later : List Command) :
    answerAll handle k (commands ++ later) =
      ((answerAll handle k commands).1 ++
          (answerAll handle (answerAll handle k commands).2 later).1,
        (answerAll handle (answerAll handle k commands).2 later).2) := by
  induction commands generalizing k with
  | nil => rfl
  | cons command commands ih => simp only [List.cons_append, answerAll_cons, ih]

theorem answerAll_length (k : κ) (commands : List Command) :
    (answerAll handle k commands).1.length = commands.length := by
  induction commands generalizing k with
  | nil => rfl
  | cons command commands ih => simp only [answerAll_cons, List.length_cons, ih]

/-! ## Replies on their way -/

/-- What a session writes last: the reply to a broken frame, if there is one. -/
def Resp.Fault.farewell : Resp.Fault → Bytes
  | .endOfInput => []
  | fault => encodeReply (.ofFault fault.toFault)

/-- How a fault ends a session. One that more input can mend does not end it. -/
def Resp.Fault.breach : Resp.Fault → Option Ending
  | .endOfInput => none
  | fault => some (.broken fault)

theorem Resp.Fault.farewell_of_final {fault : Resp.Fault} (final : fault ≠ .endOfInput) :
    fault.farewell = encodeReply (.ofFault fault.toFault) := by
  cases fault with
  | endOfInput => exact absurd rfl final
  | _ => rfl

theorem Resp.Fault.breach_of_final {fault : Resp.Fault} (final : fault ≠ .endOfInput) :
    fault.breach = some (.broken fault) := by
  cases fault with
  | endOfInput => exact absurd rfl final
  | _ => rfl

namespace Outbox

/-- All bytes written so far, sent or held back. -/
def written (o : Outbox) : Bytes := o.output ++ o.held

@[simp] theorem held_flush (o : Outbox) : o.flush.held = [] := by
  unfold flush
  split
  · assumption
  · rfl

@[simp] theorem output_flush (o : Outbox) : o.flush.output = o.written := by
  unfold flush
  split
  · next empty => rw [written, empty, List.append_nil]
  · simp [written, output]

@[simp] theorem written_flush (o : Outbox) : o.flush.written = o.written := by
  rw [written, output_flush, held_flush, List.append_nil]

/-- Bytes that are sent at once overtake none: what was held back has left before them. -/
theorem exists_write_eq (bytes : Bytes) (o : Outbox) :
    ∃ p : Outbox, p.written = o.written ∧ (capacity ≤ bytes.length → p.held = []) ∧
      o.write bytes =
        if capacity ≤ bytes.length then ⟨bytes :: p.sent, p.held⟩
        else ⟨p.sent, p.held ++ bytes⟩ := by
  refine ⟨if capacity < o.held.length + bytes.length then o.flush else o, ?_, fun large => ?_, rfl⟩
  · split
    · exact written_flush o
    · rfl
  · split
    · exact held_flush o
    · exact List.length_eq_zero_iff.mp (by omega)

@[simp] theorem written_write (bytes : Bytes) (o : Outbox) :
    (o.write bytes).written = o.written ++ bytes := by
  obtain ⟨p, same, empty, wrote⟩ := exists_write_eq bytes o
  rw [wrote, ← same]
  split
  · next large => simp [written, output, empty large]
  · simp [written, output]

/-! What was sent stays sent. -/

theorem sent_flush (o : Outbox) : o.sent <:+ o.flush.sent := by
  rw [flush]
  split
  · exact List.suffix_refl _
  · exact List.suffix_cons _ _

theorem sent_write (bytes : Bytes) (o : Outbox) : o.sent <:+ (o.write bytes).sent := by
  have made : o.sent <:+
      (if capacity < o.held.length + bytes.length then o.flush else o).sent := by
    split
    · exact sent_flush o
    · exact List.suffix_refl _
  rw [write]
  split
  · exact made.trans (List.suffix_cons _ _)
  · exact made

end Outbox

namespace Session

/-! ## One item after another -/

variable {s : Session} {k : κ} {command : Command} {rest : Bytes} {fault : Resp.Fault}

theorem work_of_command (taken : readCommand s.waiting = .ok (command, rest)) :
    work handle s k =
      work handle (answer (handle k command).1 { s with waiting := rest })
        (handle k command).2 := by
  rw [work]
  split <;> simp_all

theorem work_of_endOfInput (ended : readCommand s.waiting = .error .endOfInput) :
    work handle s k = (s, k) := by
  rw [work]
  split <;> simp_all

theorem work_of_final (broken : readCommand s.waiting = .error fault)
    (final : fault ≠ .endOfInput) :
    work handle s k =
      ({ s with
          outbox := (s.outbox.write fault.farewell).flush,
          ending := some (.broken fault) }, k) := by
  rw [fault.farewell_of_final final, work]
  split <;> simp_all

theorem written_answer (reply : Reply) :
    (answer reply s).outbox.written = s.outbox.written ++ encodeReply reply := by
  rw [answer]
  dsimp only
  split <;> simp

/-- What a session has come to, and its node, that had written `before` and has then
been given the bytes of `stream`, in chunks of whatever size. -/
structure Served (handle : κ → Command → Reply × κ) (before stream : Bytes) (start : κ)
    (s : Session) (k : κ) : Prop where
  state : k = (answerAll handle start (commands.items stream)).2
  written : s.outbox.written = before ++
    ((answerAll handle start (commands.items stream)).1.flatMap encodeReply ++
      (commands.stop stream).farewell)
  ending : s.ending = (commands.stop stream).breach
  waiting : s.ending = none → s.waiting = commands.unread stream
  /-- A session that has ended holds nothing back. -/
  sent : s.ending ≠ none → s.outbox.held = []

theorem work_served (handle : κ → Command → Reply × κ) (s : Session) (k : κ)
    (opened : s.ending = none) :
    Served handle s.outbox.written s.waiting k (work handle s k).1 (work handle s k).2 := by
  induction hw : s.waiting using commands.induction generalizing s k with
  | stopped waiting fault stopped =>
    subst hw
    have items := commands.items_of_error stopped
    have stop := commands.stop_of_error stopped
    have unread := commands.unread_of_error stopped
    by_cases final : fault = .endOfInput
    · subst final
      rw [work_of_endOfInput stopped]
      constructor
      · rw [items, answerAll]
      · rw [items, stop]
        exact (List.append_nil _).symm
      · rw [stop, opened]
        rfl
      · exact fun _ => unread.symm
      · exact fun closed => absurd opened closed
    · rw [work_of_final stopped final]
      constructor
      · rw [items, answerAll]
      · rw [items, stop]
        exact (Outbox.written_flush _).trans (Outbox.written_write _ _)
      · rw [stop, fault.breach_of_final final]
      · exact fun _ => unread.symm
      · exact fun _ => Outbox.held_flush _
  | item waiting command rest taken ih =>
    subst hw
    have items := commands.items_of_ok taken
    have stop := commands.stop_of_ok taken
    have unread := commands.unread_of_ok taken
    obtain ⟨state, written, ending, waiting, sent⟩ :=
      ih (answer (handle k command).1 { s with waiting := rest }) (handle k command).2 opened rfl
    rw [work_of_command taken]
    constructor
    · rw [items, answerAll_cons]
      exact state
    · rw [items, answerAll_cons, stop, written, written_answer]
      simp only [List.flatMap_cons, List.append_assoc]
    · rw [stop]
      exact ending
    · rw [unread]
      exact waiting
    · exact sent

theorem sent_answer (reply : Reply) (s : Session) :
    s.outbox.sent <:+ (answer reply s).outbox.sent := by
  have wrote := s.outbox.sent_write (encodeReply reply)
  rw [answer]
  dsimp only
  split
  · exact wrote.trans (Outbox.sent_flush _)
  · exact wrote

theorem sent_work (handle : κ → Command → Reply × κ) (s : Session) (k : κ) :
    s.outbox.sent <:+ (work handle s k).1.outbox.sent := by
  induction hw : s.waiting using commands.induction generalizing s k with
  | stopped waiting fault stopped =>
    subst hw
    by_cases final : fault = .endOfInput
    · subst final
      simp only [work_of_endOfInput stopped, List.suffix_refl]
    · rw [work_of_final stopped final]
      exact (s.outbox.sent_write fault.farewell).trans (Outbox.sent_flush _)
  | item waiting command rest taken ih =>
    subst hw
    rw [work_of_command taken]
    let s' : Session := { s with waiting := rest }
    exact (sent_answer (handle k command).1 s').trans
      (ih (answer (handle k command).1 s') (handle k command).2 rfl)

/-! ## One chunk after another -/

theorem served_start (k : κ) : Served handle [] [] k start k := by
  have items := commands.items_of_error Resp.readCommand_nil
  have stop := commands.stop_of_error Resp.readCommand_nil
  constructor
  · rw [items, answerAll]
  · rw [items, stop]
    rfl
  · rw [stop]
    rfl
  · exact fun _ => (commands.unread_of_error Resp.readCommand_nil).symm
  · exact fun closed => absurd rfl closed

variable {before stream : Bytes} {k₀ : κ}

theorem Served.stop (served : Served handle before stream k₀ s k) (opened : s.ending = none) :
    commands.stop stream = .endOfInput := by
  by_contra final
  have closed := served.ending
  rw [Resp.Fault.breach_of_final final, opened] at closed
  cases closed

theorem Served.final {ending : Ending} (served : Served handle before stream k₀ s k)
    (closed : s.ending = some ending) :
    commands.stop stream ≠ .endOfInput ∧ ending = .broken (commands.stop stream) := by
  have same := served.ending
  have final : commands.stop stream ≠ .endOfInput := by
    intro ended
    rw [closed, ended] at same
    cases same
  rw [closed, Resp.Fault.breach_of_final final] at same
  exact ⟨final, Option.some.inj same⟩

theorem receive_of_open (opened : s.ending = none) (chunk : Bytes) :
    receive handle chunk s k = work handle { s with waiting := s.waiting ++ chunk } k := by
  rw [receive, opened]

theorem receive_of_ended {ending : Ending} (closed : s.ending = some ending) (chunk : Bytes) :
    receive handle chunk s k = (s, k) := by
  rw [receive, closed]

theorem sent_receive (handle : κ → Command → Reply × κ) (chunk : Bytes) (s : Session) (k : κ) :
    s.outbox.sent <:+ (receive handle chunk s k).1.outbox.sent := by
  cases ending : s.ending with
  | some _ => simp only [receive_of_ended ending, List.suffix_refl]
  | none =>
    rw [receive_of_open ending]
    exact sent_work handle { s with waiting := s.waiting ++ chunk } k

theorem Served.receive (served : Served handle before stream k₀ s k) (chunk : Bytes) :
    Served handle before (stream ++ chunk) k₀ (receive handle chunk s k).1
      (receive handle chunk s k).2 := by
  cases ending : s.ending with
  | some _ =>
    -- The framing is broken, and no further byte is looked at.
    obtain ⟨final, rfl⟩ := served.final ending
    obtain ⟨items, stop⟩ :=
      commands.append_of_broken Resp.readCommand_reads Resp.readCommand_settles final chunk
    rw [receive_of_ended ending]
    constructor
    · rw [items]
      exact served.state
    · rw [items, stop]
      exact served.written
    · rw [stop]
      exact served.ending
    · exact fun opened => nomatch ending.symm.trans opened
    · exact served.sent
  | none =>
    have stop := served.stop ending
    obtain ⟨items', stop', unread'⟩ := commands.append Resp.readCommand_reads stream chunk
    rw [← served.waiting ending] at items' stop' unread'
    have state := served.state
    have written := served.written
    rw [stop, Resp.Fault.farewell, List.append_nil] at written
    have later := work_served handle { s with waiting := s.waiting ++ chunk } k ending
    rw [receive_of_open ending]
    constructor
    · rw [items', answerAll_append, ← state]
      exact later.state
    · rw [items', answerAll_append, ← state, stop', List.flatMap_append, List.append_assoc,
        ← List.append_assoc before, ← written]
      exact later.written
    · rw [stop']
      exact later.ending
    · rw [unread']
      exact later.waiting
    · exact later.sent

/-- A session and its node after some chunks. -/
def receiveAll (handle : κ → Command → Reply × κ) (chunks : List Bytes) (k : κ) : Session × κ :=
  chunks.foldl (fun (s, k) chunk => receive handle chunk s k) (start, k)

theorem receiveAll_snoc (chunks : List Bytes) (chunk : Bytes) (k : κ) :
    receiveAll handle (chunks ++ [chunk]) k =
      receive handle chunk (receiveAll handle chunks k).1 (receiveAll handle chunks k).2 := by
  rw [receiveAll, List.foldl_append]
  rfl

theorem served_receiveAll (handle : κ → Command → Reply × κ) (chunks : List Bytes) (k : κ) :
    Served handle [] chunks.flatten k (receiveAll handle chunks k).1
      (receiveAll handle chunks k).2 := by
  induction chunks using List.reverseRecOn with
  | nil => exact served_start k
  | append_singleton chunks chunk ih =>
    rw [receiveAll_snoc, List.flatten_append, List.flatten_singleton]
    exact ih.receive chunk

/-! ## The whole session -/

theorem run_eq (chunks : List Bytes) (k : κ) :
    run handle chunks k =
      ((receiveAll handle chunks k).1.close, (receiveAll handle chunks k).2) := rfl

theorem run_snd (handle : κ → Command → Reply × κ) (chunks : List Bytes) (k : κ) :
    (run handle chunks k).2 = (answerAll handle k (commands.items chunks.flatten)).2 :=
  (served_receiveAll handle chunks k).state

theorem output_run (handle : κ → Command → Reply × κ) (chunks : List Bytes) (k : κ) :
    (run handle chunks k).1.outbox.output =
      (answerAll handle k (commands.items chunks.flatten)).1.flatMap encodeReply ++
        (commands.stop chunks.flatten).farewell := by
  have served := served_receiveAll handle chunks k
  rw [← List.nil_append (List.flatMap _ _ ++ _), ← served.written, run_eq, close]
  cases ending : (receiveAll handle chunks k).1.ending with
  | none => exact Outbox.output_flush _
  | some _ =>
    have sent := served.sent (by simp [ending])
    rw [Outbox.written, sent, List.append_nil]

theorem ending_run (handle : κ → Command → Reply × κ) (chunks : List Bytes) (k : κ) :
    (run handle chunks k).1.ending =
      some ((commands.stop chunks.flatten).breach.getD .closed) := by
  have served := served_receiveAll handle chunks k
  rw [run_eq, close, ← served.ending]
  cases ending : (receiveAll handle chunks k).1.ending with
  | none => rfl
  | some _ => exact ending

/-- A session answers the commands of its stream, however the stream is cut into chunks.

Exactly the commands that can be read before the first fault are handled, one after
another, and their replies are sent in that order. If the stream just ends there, even
in the middle of a command, that is all, and the session is closed. If the framing is
broken there, one error reply follows that says so, and the session ends with that
fault. The node is left as those commands leave it: whatever stands behind the last of
them, and cannot be read as a command, might as well be any other bytes of this kind. -/
theorem run_answers_commands (book : AddressBook) (node : Node) (chunks : List Bytes) :
    let stream := chunks.flatten
    let fault := commands.stop stream
    let (replies, after) := answerAll (Node.handle book) node (commands.items stream)
    let (session, final) := run (Node.handle book) chunks node
    final = after ∧
    (fault = .endOfInput →
      session.ending = some .closed ∧
      session.outbox.output = replies.flatMap encodeReply) ∧
    (fault ≠ .endOfInput → ∃ text, fault.toFault = .protocol text ∧
      session.ending = some (.broken fault) ∧
      session.outbox.output =
        replies.flatMap encodeReply ++ encodeReply (.error s!"ERR Protocol error: {text}")) ∧
    ∃ front, stream = front ++ commands.unread stream ∧
      ∀ others tail other, others.flatten = front ++ tail → readCommand tail = .error other →
        (run (Node.handle book) others node).2 = final ∧
        (run (Node.handle book) others node).1.outbox.output =
          replies.flatMap encodeReply ++ other.farewell := by
  intro stream fault
  have output := output_run (Node.handle book) chunks node
  have ending := ending_run (Node.handle book) chunks node
  refine ⟨run_snd _ chunks node, fun ended => ?_, fun broken => ?_, ?_⟩
  · have stop : commands.stop chunks.flatten = .endOfInput := ended
    rw [stop] at output ending
    exact ⟨ending, output.trans (List.append_nil _)⟩
  · refine ⟨fault.message, fault.toFault_eq_protocol broken, ?_, ?_⟩
    · exact ending.trans (congrArg (fun breach => some (breach.getD .closed))
        (Resp.Fault.breach_of_final broken))
    · rw [Resp.Fault.farewell_of_final broken, fault.toFault_eq_protocol broken] at output
      exact output
  · obtain ⟨front, split, behind⟩ := commands.front Resp.readCommand_reads stream
    refine ⟨front, split, fun others tail other same stopped => ?_⟩
    have items : commands.items others.flatten = commands.items stream := by
      rw [same, (behind tail).1, commands.items_of_error stopped, List.append_nil]
    have stop : commands.stop others.flatten = other := by
      rw [same, (behind tail).2.1, commands.stop_of_error stopped]
    constructor
    · rw [run_snd, items]
      exact (run_snd _ chunks node).symm
    · rw [output_run, items, stop]

end Session

end LogKv
