import Mathlib.Data.List.Basic

/-! What is seen of a system while things happen to it, one after the other. Two systems
look the same from some places if whatever happens to the one can be answered by what
happens to the other, so that the same is seen there and the two stay related. -/
namespace LogKv

variable {κ κ' α α' β : Type}

/-- What is seen while these things happen in turn, and the state afterwards. -/
def observe (happen : κ → α → List β × κ) (k : κ) : List α → List β × κ
  | [] => ([], k)
  | event :: events =>
    let (seen, k) := happen k event
    let (later, k) := observe happen k events
    (seen ++ later, k)

/-- What is seen at the place of that number. -/
def seenAt (number : Nat) (seen : List (Nat × β)) : List β :=
  (seen.filter (·.1 = number)).map Prod.snd

theorem seenAt_append (number : Nat) (seen later : List (Nat × β)) :
    seenAt number (seen ++ later) = seenAt number seen ++ seenAt number later := by
  rw [seenAt, List.filter_append, List.map_append]
  rfl

@[simp]
theorem observe_singleton (happen : κ → α → List β × κ) (k : κ) (event : α) :
    observe happen k [event] = happen k event := by
  simp [observe]

theorem observe_append (happen : κ → α → List β × κ) (k : κ) (events later : List α) :
    observe happen k (events ++ later) =
      let (seen, k) := observe happen k events
      let (next, k) := observe happen k later
      (seen ++ next, k) := by
  induction events generalizing k with
  | nil => rfl
  | cons event events ih => simp [observe, ih]

/-- What every event keeps is kept by any number of them. -/
theorem observe_keeps {happen : κ → α → List β × κ} (holds : κ → Prop)
    (step : ∀ k event, holds k → holds (happen k event).2) {k : κ} (start : holds k)
    (events : List α) : holds (observe happen k events).2 := by
  induction events generalizing k with
  | nil => exact start
  | cons event events ih => exact ih (step k event start)

/-- Two systems look the same from places that correspond if they do so at every event. -/
theorem observe_agrees {happen : κ → α → List (Nat × β) × κ}
    {happen' : κ' → α' → List (Nat × β) × κ'} (related : κ → κ' → Prop)
    (translate : α → List α') {ι : Type} (here there : ι → Nat) {events : List α}
    (step : ∀ event ∈ events, ∀ k k', related k k' →
      (∀ i, seenAt (here i) (happen k event).1 =
        seenAt (there i) (observe happen' k' (translate event)).1) ∧
      related (happen k event).2 (observe happen' k' (translate event)).2)
    {k : κ} {k' : κ'} (start : related k k') :
    (∀ i, seenAt (here i) (observe happen k events).1 =
      seenAt (there i) (observe happen' k' (events.flatMap translate)).1) ∧
    related (observe happen k events).2 (observe happen' k' (events.flatMap translate)).2 := by
  induction events generalizing k k' with
  | nil => exact ⟨fun _ => rfl, start⟩
  | cons event events ih =>
    obtain ⟨now, next⟩ := step event List.mem_cons_self k k' start
    obtain ⟨later, final⟩ := ih (fun event among => step event (List.mem_cons_of_mem _ among)) next
    rw [List.flatMap_cons, observe_append]
    refine ⟨fun i => ?_, final⟩
    simp only [observe, seenAt_append]
    rw [now, later]

end LogKv
