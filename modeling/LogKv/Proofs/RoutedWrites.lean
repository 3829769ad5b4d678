import LogKv.Proofs.Rehearsals

/-! Writes through a log that may do anything. A write to a leader is submitted once,
whatever comes back for it, and nothing else is submitted at all. The reply is told by
what came back: `done` if the log gave the report of an entry that took effect, and
otherwise why there is no such report. -/
namespace LogKv

/-- The reply to a write by what came back for it, if `done` is the reply when it takes effect. -/
def Reply.ofAnswer (timeout : Duration) (done : Reply) : Delivery → Reply
  | .owed =>
    .error ("ERR apply timed out after " ++ toString timeout.millis ++
      "ms; write outcome is unknown")
  | .dropped => .error "ERR replication failed: entry dropped before it was applied"
  | .delivered (.error fault) => .error ("ERR " ++ fault.message)
  | .delivered (.ok raw) =>
    match Outcome.decode raw with
    | .ok (.applied _) => done
    | .ok .notFound => .error "ERR key not found"
    | .ok (.rejected reason) => .error ("ERR " ++ reason)
    | .error fault => .error ("ERR Serialization error: " ++ fault.message)

theorem Reply.ofVerdict_answer (timeout : Duration) (done : Reply) (answer : Delivery) :
    ofVerdict done (answer.afterWaiting timeout >>= Outcome.resultOf) =
      ofAnswer timeout done answer := by
  cases answer with
  | owed => rfl
  | dropped => rfl
  | delivered result =>
    cases result with
    | error fault => rfl
    | ok raw =>
      -- Only here is there a report to be read; all other answers are faults already.
      change ofVerdict done (Outcome.resultOf raw) = _
      rw [Outcome.resultOf, ofAnswer]
      cases Outcome.decode raw with
      | error fault => rfl
      | ok outcome => cases outcome <;> rfl

theorem Reply.ofAnswer_eq_done_iff {timeout : Duration} {done : Reply} {answer : Delivery}
    (succeeds : done.isError = false) :
    ofAnswer timeout done answer = done ↔
      ∃ raw value, answer = .delivered (.ok raw) ∧ Outcome.decode raw = .ok (.applied value) := by
  have differs (text : String) : Reply.error text ≠ done := by
    rintro rfl
    cases succeeds
  cases answer with
  | owed => simp [ofAnswer, differs]
  | dropped => simp [ofAnswer, differs]
  | delivered result =>
    cases result with
    | error fault => simp [ofAnswer, differs]
    | ok raw =>
      cases report : Outcome.decode raw with
      | error fault => simp [ofAnswer, report, differs]
      | ok outcome => cases outcome <;> simp [ofAnswer, report, differs]

namespace Rehearsed

variable {σ : Type}

/-- Each write to a leader is submitted exactly once, and nothing else is.

After any history the frames that were submitted are those before it and then, in order,
those of the writes that were handled while leading; each frame reads back as its entry.
A command that is no write to a leader leaves everything as it is. A write to a leader
takes one turn of the log for its own frame, and the answer of the log alone tells the
reply. That is `done` exactly if the answer reads as the report of an entry that took
effect. -/
theorem submits_each_write_once (storage : Storage σ) (timeout : Duration) (start : Stage σ)
    (acts : List (Act σ)) (fits : ∀ act ∈ acts, act.Addressable) :
    let stage := start.after storage timeout acts
    let written := entries start.node.role acts
    stage.node.submitted.reverse = start.node.submitted.reverse ++ written.map Entry.encode ∧
    (∀ entry ∈ written, Entry.decode entry.encode = .ok entry) ∧
    ∀ command,
      let reply := (stage.handle storage timeout command).1
      let next := (stage.handle storage timeout command).2
      let write := submission? (roleAfter start.node.role acts) command
      (write = none → next = stage) ∧
      ∀ entry done, write = some (entry, done) →
        let answer := stage.node.answer storage entry.encode
        next.node.submitted = entry.encode :: stage.node.submitted ∧
        next.node.script = stage.node.script.tail ∧
        reply = .ofAnswer timeout done answer ∧
        (reply = done ↔ ∃ raw value,
          answer = .delivered (.ok raw) ∧ Outcome.decode raw = .ok (.applied value)) := by
  intro stage written
  refine ⟨?_, ?_, ?_⟩
  · rw [after_submitted, List.reverse_append, List.reverse_reverse]
  · intro entry member
    exact Entry.decode_encode (entries_addressable fits entry member)
  · intro command reply next write
    have role : write = submission? stage.node.role command := by
      rw [after_role storage timeout start acts]
    refine ⟨fun unrouted => handle_unrouted storage timeout (role ▸ unrouted), ?_⟩
    intro entry done writes answer
    rw [role] at writes
    have handled := handle_routed storage timeout writes
    have submitted := propose_submitted storage timeout stage.node entry.encode
    have node : next.node = (propose storage timeout stage.node entry.encode).2 :=
      congrArg (·.2.node) handled
    have told : reply = .ofAnswer timeout done answer :=
      (congrArg Prod.fst handled).trans (Reply.ofVerdict_answer timeout done answer)
    have succeeds : done.isError = false := by
      obtain ⟨-, _, -, writes⟩ := submission?_eq_some_iff.mp writes
      exact Request.write?_succeeds writes
    refine ⟨node ▸ submitted.submitted, node ▸ submitted.script, told, ?_⟩
    rw [told]
    exact Reply.ofAnswer_eq_done_iff succeeds

/-- A put is never answered and another one comes to a follower; a delete is answered with no
bytes at all. -/
theorem submits_each_write_once_unanswered :
    let timeout := Duration.ofMillis 5
    let put := (Request.set [107] [118]).command
    let delete := (Request.del [107]).command
    let acts : List (Act Store) :=
      [.script [.hang, .raw []], .handle put, .role .follower, .handle put, .role .leader]
    let stage := Stage.after .memory timeout ⟨.start .empty, .empty⟩ acts
    let (reply, next) := stage.handle .memory timeout delete
    (∀ act ∈ acts, act.Addressable) ∧
    stage.node.submitted.reverse = [(Entry.put [107] [118]).encode] ∧
    next.node.submitted = (Entry.delete [107]).encode :: stage.node.submitted ∧
    reply = .error "ERR Serialization error: io error: unexpected end of file" ∧
    reply ≠ .integer 1 := by
  intro timeout put delete acts stage
  have fits : ∀ act ∈ acts, act.Addressable := by decide +kernel
  obtain ⟨submitted, -, handled⟩ :=
    submits_each_write_once .memory timeout ⟨.start .empty, .empty⟩ acts fits
  have routed := (handled delete).2 (.delete [107]) (.integer 1) (by decide +kernel)
  obtain ⟨taken, -, told, -⟩ := routed
  have reply : (stage.handle .memory timeout delete).1 =
      .error "ERR Serialization error: io error: unexpected end of file" :=
    told.trans (by decide +kernel)
  refine ⟨fits, submitted.trans ?_, taken, reply, ?_⟩
  · decide +kernel
  · intro done
    cases reply.symm.trans done

end Rehearsed

end LogKv
