import LogKv.Client

/-! What a run of the client comes to, whatever the servers are. A run is one connection,
or two if the first reply says where to turn and the client is to follow it. Each of them
carries the same bytes, and what the last of them brings decides the report. -/
namespace LogKv.Client

/-- One connection: where to, the bytes that were sent, and what came back. -/
structure Exchange where
  address : String
  sent : Bytes
  answer : Except Fault Bytes

/-- The reply in what came back. -/
def Exchange.reply (exchange : Exchange) : Except Fault Reply := exchange.answer.bind replyIn

/-- What a run leaves behind in a world of servers. -/
structure Visit (ω : Type) where
  report : Report
  /-- The connections in order. -/
  exchanges : List Exchange
  world : ω

variable {ω : Type} (ask : String → Bytes → ω → Except Fault Bytes × ω)

/-- Asks a server and puts the exchange on record. -/
def recording (address : String) (bytes : Bytes) :
    StateM (ω × List Exchange) (Except Fault Bytes) := fun (w, record) =>
  match ask address bytes w with
  | (answer, w) => (answer, w, record ++ [⟨address, bytes, answer⟩])

/-- Runs the client in a world whose servers answer like `ask`. -/
def visit (invocation : Invocation) (w : ω) : Visit ω :=
  match (run (recording ask) invocation).run (w, []) with
  | (report, w, exchanges) => ⟨report, exchanges, w⟩

/-- The report of a run that has printed `errors` before its last answer. -/
def reportOf (errors : String) (answer : Except Fault Bytes) : Report :=
  match answer.bind replyIn with
  | .error fault => failed errors fault
  | .ok reply => replied errors reply

/-- Where an answer sends the client. -/
def turn? (follow : Bool) (answer : Except Fault Bytes) : Option String :=
  match answer.bind replyIn with
  | .error _ => none
  | .ok reply => nextAddress? follow reply

theorem run_recording {α : Type} (address : String) (bytes : Bytes) (w : ω) (record : List Exchange)
    (next : Except Fault Bytes → StateM (ω × List Exchange) α) :
    (recording ask address bytes >>= next).run (w, record) =
      (next (ask address bytes w).1).run
        ((ask address bytes w).2, record ++ [⟨address, bytes, (ask address bytes w).1⟩]) := rfl

theorem visit_eq (invocation : Invocation) (w : ω) :
    visit ask invocation w =
      let bytes := Resp.encodeCommand invocation.request.command
      let first := ask invocation.server bytes w
      match turn? invocation.follow first.1 with
      | none => ⟨reportOf "" first.1, [⟨invocation.server, bytes, first.1⟩], first.2⟩
      | some address =>
        let second := ask address bytes first.2
        ⟨reportOf (redirected address) second.1,
          [⟨invocation.server, bytes, first.1⟩, ⟨address, bytes, second.1⟩], second.2⟩ := by
  rw [visit, run, run_recording]
  simp only [reportOf, turn?]
  generalize ask invocation.server _ w = first
  cases first.1.bind replyIn with
  | error fault => rfl
  | ok reply =>
    dsimp only
    cases nextAddress? invocation.follow reply with
    | none => rfl
    | some address =>
      dsimp only
      rw [run_recording]
      cases (ask address _ first.2).1.bind replyIn <;> rfl

variable {ask} {invocation : Invocation} {w : ω}

/-- A client that has nowhere to turn is done after one exchange. -/
theorem visit_of_no_turn
    (stays : turn? invocation.follow
      (ask invocation.server (Resp.encodeCommand invocation.request.command) w).1 = none) :
    let bytes := Resp.encodeCommand invocation.request.command
    let first := ask invocation.server bytes w
    visit ask invocation w =
      ⟨reportOf "" first.1, [⟨invocation.server, bytes, first.1⟩], first.2⟩ := by
  rw [visit_eq]
  simp only [stays]

/-- A client that turns somewhere is done after the exchange there. -/
theorem visit_of_turn {address : String}
    (turns : turn? invocation.follow
      (ask invocation.server (Resp.encodeCommand invocation.request.command) w).1 = some address) :
    let bytes := Resp.encodeCommand invocation.request.command
    let first := ask invocation.server bytes w
    let second := ask address bytes first.2
    visit ask invocation w =
      ⟨reportOf (redirected address) second.1,
        [⟨invocation.server, bytes, first.1⟩, ⟨address, bytes, second.1⟩], second.2⟩ := by
  rw [visit_eq]
  simp only [turns]

theorem turn?_of_not_follow (answer : Except Fault Bytes) : turn? false answer = none := by
  unfold turn?
  split <;> rfl

theorem turn?_of_redirect {reply : Reply} {address : String} {answer : Except Fault Bytes}
    (read : answer.bind replyIn = .ok reply) (redirect : reply.redirectAddress? = some address) :
    turn? true answer = some address := by
  rw [turn?, read]
  exact redirect

/-! ## The report -/

theorem reportOf_success {errors : String} {answer : Except Fault Bytes} :
    (reportOf errors answer).code = success ↔
      ∃ reply, answer.bind replyIn = .ok reply ∧ reply.isError = false := by
  unfold reportOf
  cases answer.bind replyIn with
  | error fault => simp [failed, failure, success]
  | ok reply => cases error : reply.isError <;> simp [replied, error, failure, success]

/-- What was printed before the last answer changes nothing but what was printed. -/
theorem reportOf_errors (errors : String) (answer : Except Fault Bytes) :
    reportOf errors answer =
      { reportOf "" answer with errors := errors ++ (reportOf "" answer).errors } := by
  unfold reportOf
  cases answer.bind replyIn with
  | error fault => simp [failed, toString, String.append_assoc]
  | ok reply => simp [replied]

/-- What a run comes to is told by its last exchange. Every exchange sends the same bytes, and
there is no third one. -/
theorem visit_exchanges (ask : String → Bytes → ω → Except Fault Bytes × ω)
    (invocation : Invocation) (w : ω) :
    let visited := visit ask invocation w
    (visited.report.code = success ↔ ∃ last reply, visited.exchanges.getLast? = some last ∧
      last.reply = .ok reply ∧ reply.isError = false) ∧
    (∀ exchange ∈ visited.exchanges,
      exchange.sent = Resp.encodeCommand invocation.request.command) ∧
    visited.exchanges.length ≤ 2 := by
  intro visited
  cases turn : turn? invocation.follow
    (ask invocation.server (Resp.encodeCommand invocation.request.command) w).1 with
  | none =>
    simp only [visited, visit_of_no_turn turn, reportOf_success]
    simp [Exchange.reply]
  | some address =>
    simp only [visited, visit_of_turn turn, reportOf_success]
    simp [Exchange.reply]

end LogKv.Client
