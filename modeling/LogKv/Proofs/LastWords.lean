import Mathlib.Tactic.Tauto

/-! Histories in which the last word counts. Each event of a history either decides a
question or spares it; what the history comes to is what its last deciding event says,
or what held before if every event spares the question. -/
namespace LogKv

variable {α β : Type} {decides spares : α → Prop} {event : α} {history : List α}

/-- The last event in a history that does not spare the question decides it so. -/
def LastWord (decides spares : α → Prop) (history : List α) : Prop :=
  ∃ before last after, history = before ++ last :: after ∧ decides last ∧
    ∀ later ∈ after, spares later

theorem not_lastWord_nil : ¬LastWord decides spares [] := by
  rintro ⟨before, last, after, here, -⟩
  simp at here

theorem lastWord_cons : LastWord decides spares (event :: history) ↔
    LastWord decides spares history ∨ decides event ∧ ∀ later ∈ history, spares later := by
  constructor
  · rintro ⟨before, last, after, here, decided, spared⟩
    cases before with
    | nil =>
      obtain ⟨rfl, rfl⟩ := List.cons.inj here
      exact .inr ⟨decided, spared⟩
    | cons first before =>
      obtain ⟨rfl, rfl⟩ := List.cons.inj here
      exact .inl ⟨before, last, after, rfl, decided, spared⟩
  · rintro (⟨before, last, after, rfl, decided, spared⟩ | ⟨decided, spared⟩)
    · exact ⟨event :: before, last, after, rfl, decided, spared⟩
    · exact ⟨[], event, history, rfl, decided, spared⟩

/-- What holds after one event is what it decides, or what held before if it spares that. So it
is with a whole history and its last word. -/
theorem foldl_lastWord {step : β → α → β} (holds : β → Prop)
    (one : ∀ s event, holds (step s event) ↔ decides event ∨ spares event ∧ holds s) (s : β)
    (history : List α) :
    holds (history.foldl step s) ↔
      LastWord decides spares history ∨ (∀ event ∈ history, spares event) ∧ holds s := by
  induction history generalizing s with
  | nil => simp [not_lastWord_nil]
  | cons event history ih =>
    rw [List.foldl_cons, ih, one, lastWord_cons, List.forall_mem_cons]
    tauto

end LogKv
