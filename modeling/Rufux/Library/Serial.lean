import Mathlib.Data.List.Forall2

/-!
Several clients of one server that handles their requests one after the other: the state that a
history of requests leads to, and what each client asked and was answered.
-/

namespace Rufux.Library

variable {σ ι ρ α β : Type}

section Clients

variable [DecidableEq ι]

/-- The entries of a history that belong to a client. -/
def ofClient (client : ι) (history : List (ι × β)) : List β :=
  (history.filter fun entry => entry.1 = client).map Prod.snd

theorem ofClient_append (client : ι) (first second : List (ι × β)) :
    ofClient client (first ++ second) = ofClient client first ++ ofClient client second := by
  simp [ofClient]

theorem ofClient_same (client : ι) (list : List β) :
    ofClient client (list.map (Prod.mk client)) = list := by
  induction list with
  | nil => rfl
  | cons head rest ih => simpa [ofClient] using ih

theorem ofClient_other {client other : ι} (apart : other ≠ client) (list : List β) :
    ofClient client (list.map (Prod.mk other)) = [] := by
  simp [ofClient, apart]

end Clients

section Histories

variable (handle : σ → ρ → σ × α)

/-- The server once it has handled the requests of a history. -/
def serial (state : σ) (history : List (ι × ρ)) : σ :=
  history.foldl (fun state entry => (handle state entry.2).1) state

/-- What each request of a history is answered with. -/
def answers : σ → List (ι × ρ) → List (ι × α)
  | _, [] => []
  | state, entry :: rest =>
      (entry.1, (handle state entry.2).2) :: answers (handle state entry.2).1 rest

theorem serial_append (state : σ) (first second : List (ι × ρ)) :
    serial handle state (first ++ second) = serial handle (serial handle state first) second := by
  simp [serial]

theorem answers_append (state : σ) (first second : List (ι × ρ)) :
    answers handle state (first ++ second) =
      answers handle state first ++ answers handle (serial handle state first) second := by
  induction first generalizing state with
  | nil => rfl
  | cons entry rest ih => simp [answers, serial, ih]

/-- Each request of a client has an answer of its own, which it got in some state. -/
theorem answered_ofClient [DecidableEq ι] (client : ι) (state : σ) (history : List (ι × ρ)) :
    List.Forall₂ (fun request answer => ∃ before, (handle before request).2 = answer)
      (ofClient client history) (ofClient client (answers handle state history)) := by
  induction history generalizing state with
  | nil => exact .nil
  | cons entry rest ih =>
      have later := ih (handle state entry.2).1
      by_cases same : entry.1 = client
      · have first : ∃ before, (handle before entry.2).2 = (handle state entry.2).2 := ⟨state, rfl⟩
        simpa [ofClient, answers, same] using List.Forall₂.cons first later
      · simpa [ofClient, answers, same] using later

/-- What every request keeps holds after every history. -/
theorem serial_keeps {keeps : σ → Prop} (step : ∀ state request, keeps state →
    keeps (handle state request).1) {state : σ} (first : keeps state) (history : List (ι × ρ)) :
    keeps (serial handle state history) := by
  induction history generalizing state with
  | nil => exact first
  | cons entry rest ih => exact ih (step state entry.2 first)

/-- The requests of a history but for those that are ignored, as their answers tell. -/
def heeded (ignored : ρ → α → Bool) : σ → List (ι × ρ) → List (ι × ρ)
  | _, [] => []
  | state, entry :: rest =>
      if ignored entry.2 (handle state entry.2).2 then heeded ignored (handle state entry.2).1 rest
      else entry :: heeded ignored (handle state entry.2).1 rest

/-- Requests that are ignored might as well not have been made. -/
theorem serial_heeded {ignored : ρ → α → Bool}
    (silent : ∀ state request, ignored request (handle state request).2 = true →
      (handle state request).1 = state) (state : σ) (history : List (ι × ρ)) :
    serial handle state (heeded handle ignored state history) = serial handle state history := by
  induction history generalizing state with
  | nil => rfl
  | cons entry rest ih =>
      have later := ih (handle state entry.2).1
      rw [heeded]
      by_cases away : ignored entry.2 (handle state entry.2).2 = true
      · have same := silent state entry.2 away
        rw [if_pos away]
        rw [same] at later ⊢
        rw [later]
        simp [serial, same]
      · rw [if_neg away]
        exact later

end Histories

end Rufux.Library
