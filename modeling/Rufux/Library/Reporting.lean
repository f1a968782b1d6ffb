import Mathlib

/-!
Computations that report values along the way and may fail. What each part reported stays in
the log, also when a later part fails.
-/

namespace Rufux.Library

/-- A computation that may fail, and what its parts reported until then. -/
structure Reporting (R α : Type) where
  log : List (List R)
  outcome : Option α

namespace Reporting

variable {R α β : Type}

instance : Monad (Reporting R) where
  pure value := ⟨[], some value⟩
  bind step next :=
    match step.outcome with
    | none => ⟨step.log, none⟩
    | some value => ⟨step.log ++ (next value).log, (next value).outcome⟩

/-- Everything that is reported, in order. -/
def all (step : Reporting R α) : List R := step.log.flatten

def succeeds (step : Reporting R α) : Bool := step.outcome.isSome

def report (part : List R) : Reporting R Unit := ⟨[part], some ()⟩

def must (ok : Bool) : Reporting R Unit := ⟨[], if ok then some () else none⟩

def onlyIf (wanted : Bool) (step : Reporting R Unit) : Reporting R Unit :=
  if wanted then step else pure ()

/-- A step whose failure is noted and does not stop the computation. -/
def attempt (step : Reporting R Unit) : Reporting R Bool := ⟨step.log, some step.succeeds⟩

theorem bind_none {step : Reporting R α} (next : α → Reporting R β) (failed : step.outcome = none) :
    step >>= next = ⟨step.log, none⟩ := by
  simp only [bind, failed]

theorem bind_some {step : Reporting R α} (next : α → Reporting R β) {value : α}
    (done : step.outcome = some value) :
    step >>= next = ⟨step.log ++ (next value).log, (next value).outcome⟩ := by
  simp only [bind, done]

theorem bind_bind {γ : Type} (step : Reporting R α) (next : α → Reporting R β)
    (last : β → Reporting R γ) :
    step >>= next >>= last = step >>= fun value => next value >>= last := by
  cases done : step.outcome with
  | none => rw [bind_none next done, bind_none _ done, bind_none last rfl]
  | some value =>
    rw [bind_some next done, bind_some _ done]
    cases then_done : (next value).outcome with
    | none => rw [bind_none last rfl, bind_none last then_done]
    | some result => rw [bind_some last rfl, bind_some last then_done, List.append_assoc]

theorem all_bind {step : Reporting R α} (next : α → Reporting R β) {value : α}
    (done : step.outcome = some value) : (step >>= next).all = step.all ++ (next value).all := by
  rw [bind_some next done, all, List.flatten_append]
  rfl

theorem all_bind_none {step : Reporting R α} (next : α → Reporting R β)
    (failed : step.outcome = none) : (step >>= next).all = step.all := by
  rw [bind_none next failed]
  rfl

theorem mem_bind {step : Reporting R α} {next : α → Reporting R β} {reported : R} :
    reported ∈ (step >>= next).all ↔ reported ∈ step.all ∨
      ∃ value, step.outcome = some value ∧ reported ∈ (next value).all := by
  cases done : step.outcome with
  | none =>
    rw [all_bind_none next done]
    simp
  | some value =>
    rw [all_bind next done, List.mem_append]
    simp

theorem sorted_of_bind [LE R] {step : Reporting R α} {next : α → Reporting R β}
    (sorted : (step >>= next).all.Pairwise (· ≤ ·)) : step.all.Pairwise (· ≤ ·) := by
  cases done : step.outcome with
  | none => rwa [all_bind_none next done] at sorted
  | some value =>
    rw [all_bind next done] at sorted
    exact (List.pairwise_append.mp sorted).1

theorem sorted_of_bind_some [LE R] {step : Reporting R α} {next : α → Reporting R β} {value : α}
    (sorted : (step >>= next).all.Pairwise (· ≤ ·)) (done : step.outcome = some value) :
    (next value).all.Pairwise (· ≤ ·) := by
  rw [all_bind next done] at sorted
  exact (List.pairwise_append.mp sorted).2.1

theorem must_true_bind (next : Unit → Reporting R β) : must true >>= next = next () := rfl

theorem must_false_bind (next : Unit → Reporting R β) : must false >>= next = ⟨[], none⟩ := rfl

theorem succeeds_iff {step : Reporting R Unit} : step.succeeds = true ↔ step.outcome = some () := by
  unfold succeeds
  cases step.outcome with
  | none => exact ⟨nofun, nofun⟩
  | some value => exact ⟨fun _ => rfl, fun _ => rfl⟩

theorem succeeds_bind {step : Reporting R Unit} {next : Unit → Reporting R α} :
    (step >>= next).succeeds = (step.succeeds && (next ()).succeeds) := by
  cases done : step.outcome with
  | none =>
    rw [bind_none next done, succeeds, succeeds, done]
    rfl
  | some value =>
    rw [bind_some next done, succeeds, succeeds, done]
    rfl

theorem succeeds_must (ok : Bool) : (must ok : Reporting R Unit).succeeds = ok := by
  cases ok <;> rfl

theorem succeeds_onlyIf (wanted : Bool) (step : Reporting R Unit) :
    (onlyIf wanted step).succeeds = (!wanted || step.succeeds) := by
  cases wanted <;> rfl

/-- The last report of a computation that succeeds. -/
def Closes (final : R) (step : Reporting R α) : Prop :=
  ∀ value, step.outcome = some value → step.all.getLast? = some final

theorem Closes.bind {final : R} {step : Reporting R α} {next : α → Reporting R β}
    (closes : ∀ value, Closes final (next value)) : Closes final (step >>= next) := by
  intro value done
  cases first : step.outcome with
  | none =>
    rw [bind_none next first] at done
    nomatch done
  | some middle =>
    rw [bind_some next first] at done
    rw [all_bind next first, List.getLast?_append, closes middle value done]
    rfl

theorem closes_report (final : R) : Closes final (report [final]) := fun _ _ => rfl

theorem closes_fails {final : R} {log : List (List R)} :
    Closes final (⟨log, none⟩ : Reporting R α) := fun _ done => nomatch done

section Order

variable [Preorder R]

/-- No part of the computation reports a value below the one before. -/
def Rises (step : Reporting R α) : Prop := ∀ part ∈ step.log, part.Pairwise (· ≤ ·)

/-- While no part falls, the reports of the whole never fall and stay between the bounds. -/
def Climbs (low high : R) (step : Reporting R α) : Prop :=
  step.Rises → step.all.Pairwise (· ≤ ·) ∧ ∀ value ∈ step.all, low ≤ value ∧ value ≤ high

theorem Rises.of_pairwise {step : Reporting R α} (sorted : step.all.Pairwise (· ≤ ·)) :
    step.Rises := by
  intro part inside
  exact (List.pairwise_flatten.mp sorted).1 part inside

theorem Rises.left {step : Reporting R α} {next : α → Reporting R β}
    (rises : (step >>= next).Rises) : step.Rises := by
  cases done : step.outcome with
  | none =>
    rw [bind_none next done] at rises
    exact rises
  | some value =>
    rw [bind_some next done] at rises
    exact fun part inside => rises part (List.mem_append_left _ inside)

theorem Rises.right {step : Reporting R α} {next : α → Reporting R β} {value : α}
    (rises : (step >>= next).Rises) (done : step.outcome = some value) : (next value).Rises := by
  rw [bind_some next done] at rises
  exact fun part inside => rises part (List.mem_append_right _ inside)

theorem rises_bind {step : Reporting R α} {next : α → Reporting R β} :
    (step >>= next).Rises ↔
      step.Rises ∧ ∀ value, step.outcome = some value → (next value).Rises := by
  constructor
  · exact fun rises => ⟨rises.left, fun value done => rises.right done⟩
  · rintro ⟨first, second⟩
    cases done : step.outcome with
    | none =>
      rw [bind_none next done]
      exact first
    | some value =>
      rw [bind_some next done]
      intro part inside
      rcases List.mem_append.mp inside with inside | inside
      · exact first part inside
      · exact second value done part inside

theorem rises_must (ok : Bool) : (must ok : Reporting R Unit).Rises := nofun

theorem rises_pure (value : α) : (pure value : Reporting R α).Rises := nofun

theorem rises_report {part : List R} : (report part).Rises ↔ part.Pairwise (· ≤ ·) := by
  simp [Rises, report]

theorem rises_must_bind {ok : Bool} {next : Unit → Reporting R α} :
    (must ok >>= next).Rises ↔ (ok = true → (next ()).Rises) := by
  cases ok with
  | false => exact ⟨nofun, nofun⟩
  | true => exact ⟨fun rises _ => rises, fun rises => rises rfl⟩

theorem rises_onlyIf {wanted : Bool} {step : Reporting R Unit} :
    (onlyIf wanted step).Rises ↔ (wanted = true → step.Rises) := by
  cases wanted with
  | false => exact ⟨nofun, nofun⟩
  | true => exact ⟨fun rises _ => rises, fun rises => rises rfl⟩

theorem rises_attempt_bind {step : Reporting R Unit} {next : Bool → Reporting R α} :
    (attempt step >>= next).Rises ↔ step.Rises ∧ (next step.succeeds).Rises := by
  rw [rises_bind]
  constructor
  · exact fun ⟨first, second⟩ => ⟨first, second _ rfl⟩
  · rintro ⟨first, second⟩
    refine ⟨first, fun value done => ?_⟩
    obtain rfl := Option.some.inj done
    exact second

theorem Climbs.mono {low low' high high' : R} {step : Reporting R α} (climbs : Climbs low high step)
    (below : low' ≤ low) (above : high ≤ high') : Climbs low' high' step := by
  intro rises
  obtain ⟨sorted, bounds⟩ := climbs rises
  refine ⟨sorted, fun value inside => ?_⟩
  obtain ⟨least, most⟩ := bounds value inside
  exact ⟨le_trans below least, le_trans most above⟩

theorem climbs_silent {low high : R} {step : Reporting R α} (silent : step.all = []) :
    Climbs low high step := by
  intro rises
  rw [silent]
  exact ⟨.nil, fun value inside => nomatch inside⟩

theorem climbs_must {low high : R} (ok : Bool) : Climbs low high (must ok) := climbs_silent rfl

theorem climbs_pure {low high : R} (value : α) : Climbs low high (pure value : Reporting R α) :=
  climbs_silent rfl

theorem climbs_report {low high : R} {part : List R}
    (bounds : ∀ value ∈ part, low ≤ value ∧ value ≤ high) : Climbs low high (report part) := by
  intro rises
  have whole : (report part).all = part := List.append_nil part
  rw [whole]
  exact ⟨rises part List.mem_cons_self, bounds⟩

theorem Climbs.bind {low middle high : R} {step : Reporting R α} {next : α → Reporting R β}
    (first : Climbs low middle step)
    (second : ∀ value, step.outcome = some value → Climbs middle high (next value))
    (up : low ≤ middle) (on : middle ≤ high) : Climbs low high (step >>= next) := by
  intro rises
  cases done : step.outcome with
  | none =>
    rw [all_bind_none next done]
    exact first.mono (le_refl low) on rises.left
  | some value =>
    rw [all_bind next done]
    obtain ⟨sorted, bounds⟩ := first rises.left
    obtain ⟨sorted', bounds'⟩ := second value done (rises.right done)
    refine ⟨List.pairwise_append.mpr ⟨sorted, sorted', fun one inside other inside' => ?_⟩, ?_⟩
    · exact le_trans (bounds one inside).2 (bounds' other inside').1
    · intro one inside
      rcases List.mem_append.mp inside with inside | inside
      · exact ⟨(bounds one inside).1, le_trans (bounds one inside).2 on⟩
      · exact ⟨le_trans up (bounds' one inside).1, (bounds' one inside).2⟩

theorem climbs_must_bind {low high : R} {ok : Bool} {next : Unit → Reporting R α}
    (second : ok = true → Climbs low high (next ())) : Climbs low high (must ok >>= next) := by
  cases ok with
  | false => exact climbs_silent rfl
  | true => exact second rfl

theorem Climbs.onlyIf {low high : R} {step : Reporting R Unit} (climbs : Climbs low high step)
    (wanted : Bool) : Climbs low high (onlyIf wanted step) := by
  cases wanted with
  | false => exact climbs_pure ()
  | true => exact climbs

theorem Climbs.attempt {low high : R} {step : Reporting R Unit} (climbs : Climbs low high step) :
    Climbs low high (attempt step) :=
  climbs

end Order

end Reporting

end Rufux.Library
