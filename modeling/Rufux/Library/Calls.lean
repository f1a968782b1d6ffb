import Mathlib

/-!
Programs that call an interface. What a call answers is left open: a property of every
run is one of the program's tree, and a backend turns the tree into a single run.
-/

namespace Rufux.Library

/-- One call and what it answered. -/
abbrev CallEvent (Op : Type) (Res : Op → Type) : Type := (op : Op) × Res op

inductive CallProg (Op : Type) (Res : Op → Type) (α : Type) where
  | done (value : α)
  | call (op : Op) (next : Res op → CallProg Op Res α)

namespace CallProg

variable {Op : Type} {Res : Op → Type} {α β σ : Type}

def bind : CallProg Op Res α → (α → CallProg Op Res β) → CallProg Op Res β
  | .done value, rest => rest value
  | .call op next, rest => .call op fun result => (next result).bind rest

@[simp]
theorem bind_done (value : α) (rest : α → CallProg Op Res β) :
    (done value : CallProg Op Res α).bind rest = rest value :=
  rfl

@[simp]
theorem bind_call (op : Op) (next : Res op → CallProg Op Res α) (rest : α → CallProg Op Res β) :
    (call op next).bind rest = call op fun result => (next result).bind rest :=
  rfl

/-- What a run leaves: its calls in order, its value, and the state of the backend. -/
structure Outcome (Op : Type) (Res : Op → Type) (α σ : Type) where
  events : List (CallEvent Op Res)
  value : α
  state : σ

section Runs

variable (backend : (op : Op) → σ → Res op × σ)

def run : CallProg Op Res α → σ → Outcome Op Res α σ
  | .done value, state => { events := [], value := value, state := state }
  | .call op next, state =>
      let answer := backend op state
      let later := (next answer.1).run answer.2
      { later with events := ⟨op, answer.1⟩ :: later.events }

theorem run_bind (prog : CallProg Op Res α) (rest : α → CallProg Op Res β) (state : σ) :
    (prog.bind rest).run backend state =
      let first := prog.run backend state
      let later := (rest first.value).run backend first.state
      { later with events := first.events ++ later.events } := by
  induction prog generalizing state with
  | done value => rfl
  | call op next ih =>
      simp only [bind_call, run, ih, List.cons_append]

theorem run_state_of_silent (prog : CallProg Op Res α) (state : σ)
    (silent : (prog.run backend state).events = []) :
    (prog.run backend state).state = state := by
  cases prog with
  | done value => rfl
  | call op next => exact absurd silent (List.cons_ne_nil _ _)

theorem run_keeps {keeps : σ → Prop} (step : ∀ op state, keeps state → keeps (backend op state).2)
    (prog : CallProg Op Res α) {state : σ} (first : keeps state) :
    keeps (prog.run backend state).state := by
  induction prog generalizing state with
  | done value => exact first
  | call op next ih => exact ih _ (step op state first)

/-- Every answer in a run is one that the backend gives in some state. -/
theorem answered_of_mem (prog : CallProg Op Res α) (state : σ) :
    ∀ event ∈ (prog.run backend state).events,
      ∃ before, event.2 = (backend event.1 before).1 := by
  induction prog generalizing state with
  | done value =>
      intro event member
      exact absurd member List.not_mem_nil
  | call op next ih =>
      intro event member
      rcases List.mem_cons.mp member with rfl | later
      · exact ⟨state, rfl⟩
      · exact ih _ _ event later

end Runs

/-- The postcondition holds of the calls and the value of every run, whatever is answered. -/
def Every (post : List (CallEvent Op Res) → α → Prop) : CallProg Op Res α → Prop
  | .done value => post [] value
  | .call op next => ∀ result, (next result).Every fun events => post (⟨op, result⟩ :: events)

section Rules

variable {post weaker : List (CallEvent Op Res) → α → Prop}

theorem Every.mono {prog : CallProg Op Res α} (every : prog.Every post)
    (implies : ∀ events value, post events value → weaker events value) :
    prog.Every weaker := by
  induction prog generalizing post weaker with
  | done value => exact implies [] value every
  | call op next ih =>
      intro result
      exact ih result (every result) fun events => implies (⟨op, result⟩ :: events)

theorem every_bind {prog : CallProg Op Res β} {rest : β → CallProg Op Res α} :
    (prog.bind rest).Every post ↔
      prog.Every fun events value => (rest value).Every fun later => post (events ++ later) := by
  induction prog generalizing post with
  | done value => exact Iff.rfl
  | call op next ih => exact forall_congr' fun result => ih result

/-- A property of the tree is one of each run. -/
theorem Every.run {prog : CallProg Op Res α} (every : prog.Every post)
    (backend : (op : Op) → σ → Res op × σ) (state : σ) :
    post (prog.run backend state).events (prog.run backend state).value := by
  induction prog generalizing post state with
  | done value => exact every
  | call op next ih => exact ih _ (every _) _

end Rules

end CallProg

end Rufux.Library
