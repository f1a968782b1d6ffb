import Mathlib

/-!
Runs of a deterministic machine on a list of inputs, and conditions that every step of a
run meets in the state it starts from.
-/

namespace Rufux.Library

variable {σ ι : Type} (step : σ → ι → σ)

/-- Every step of the run from a state meets the condition. -/
def Steps (condition : σ → ι → Prop) : σ → List ι → Prop
  | _, [] => True
  | state, input :: rest => condition state input ∧ Steps condition (step state input) rest

variable {step}

instance Steps.decidable {condition : σ → ι → Prop} [∀ state input, Decidable (condition state input)] :
    (state : σ) → (inputs : List ι) → Decidable (Steps step condition state inputs)
  | _, [] => isTrue trivial
  | state, input :: rest =>
      @instDecidableAnd _ _ inferInstance (Steps.decidable (step state input) rest)

/-- What holds at first and is kept by each step that meets a condition holds at the end of
a run of such steps. -/
theorem Steps.invariant {condition : σ → ι → Prop} {invariant : σ → Prop} {state : σ}
    {inputs : List ι} (met : Steps step condition state inputs)
    (preserved : ∀ state input, invariant state → condition state input →
      invariant (step state input))
    (start : invariant state) : invariant (inputs.foldl step state) := by
  induction inputs generalizing state with
  | nil => exact start
  | cons input rest ih => exact ih met.2 (preserved state input start met.1)

/-- What an invariant and the condition of a step give together, every step of the run has. -/
theorem Steps.strengthen {condition result : σ → ι → Prop} {invariant : σ → Prop} {state : σ}
    {inputs : List ι} (met : Steps step condition state inputs)
    (preserved : ∀ state input, invariant state → condition state input →
      invariant (step state input) ∧ result state input)
    (start : invariant state) : Steps step result state inputs := by
  induction inputs generalizing state with
  | nil => trivial
  | cons input rest ih =>
      obtain ⟨kept, holds⟩ := preserved state input start met.1
      exact ⟨holds, ih met.2 kept⟩

theorem Steps.mono {condition result : σ → ι → Prop} {state : σ} {inputs : List ι}
    (met : Steps step condition state inputs)
    (weaker : ∀ state input, condition state input → result state input) :
    Steps step result state inputs := by
  induction inputs generalizing state with
  | nil => trivial
  | cons input rest ih => exact ⟨weaker state input met.1, ih met.2⟩

/-- What all inputs have, each step has too. -/
theorem Steps.with_forall {condition : σ → ι → Prop} {extra : ι → Prop} {state : σ}
    {inputs : List ι} (met : Steps step condition state inputs)
    (all : ∀ input ∈ inputs, extra input) :
    Steps step (fun state input => condition state input ∧ extra input) state inputs := by
  induction inputs generalizing state with
  | nil => trivial
  | cons input rest ih =>
      exact ⟨⟨met.1, all input List.mem_cons_self⟩,
        ih met.2 fun input inside => all input (List.mem_cons_of_mem _ inside)⟩

theorem steps_append {condition : σ → ι → Prop} {state : σ} {first second : List ι} :
    Steps step condition state (first ++ second) ↔
      Steps step condition state first ∧
        Steps step condition (first.foldl step state) second := by
  induction first generalizing state with
  | nil => simp [Steps]
  | cons input rest ih =>
      simp only [List.cons_append, Steps, List.foldl_cons, ih, and_assoc]

end Rufux.Library
