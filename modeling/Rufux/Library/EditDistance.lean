import Mathlib.Data.List.Basic
import Mathlib.Order.MinMax

/-!
The least number of insertions, deletions and substitutions that make one list of another, and the
rows of the table that computes it.
-/

namespace Rufux.Library

variable {α : Type}

/-- The left list becomes the right one in so many changes. -/
inductive Edits : Nat → List α → List α → Prop where
  | done : Edits 0 [] []
  | keep {cost left right} (value : α) (rest : Edits cost left right) :
      Edits cost (value :: left) (value :: right)
  | swap {cost left right} (value other : α) (rest : Edits cost left right) :
      Edits (cost + 1) (value :: left) (other :: right)
  | drop {cost left right} (value : α) (rest : Edits cost left right) :
      Edits (cost + 1) (value :: left) right
  | add {cost left right} (other : α) (rest : Edits cost left right) :
      Edits (cost + 1) left (other :: right)

/-- The least number of changes. -/
def IsDistance (left right : List α) (cost : Nat) : Prop :=
  Edits cost left right ∧ ∀ other, Edits other left right → cost ≤ other

theorem IsDistance.unique {left right : List α} {cost other : Nat}
    (first : IsDistance left right cost) (second : IsDistance left right other) : cost = other :=
  Nat.le_antisymm (first.2 other second.1) (second.2 cost first.1)

theorem Edits.append {cost more : Nat} {left right later after : List α}
    (first : Edits cost left right) (second : Edits more later after) :
    Edits (cost + more) (left ++ later) (right ++ after) := by
  induction first with
  | done => simpa using second
  | keep value _ ih => exact .keep value ih
  | swap value other _ ih =>
      rw [Nat.add_right_comm]
      exact .swap value other ih
  | drop value _ ih =>
      rw [Nat.add_right_comm]
      exact .drop value ih
  | add other _ ih =>
      rw [Nat.add_right_comm]
      exact .add other ih

theorem Edits.reverse {cost : Nat} {left right : List α} (edits : Edits cost left right) :
    Edits cost left.reverse right.reverse := by
  induction edits with
  | done => exact .done
  | keep value _ ih =>
      simp only [List.reverse_cons]
      exact ih.append (.keep value .done)
  | swap value other _ ih =>
      simp only [List.reverse_cons]
      exact ih.append (.swap value other .done)
  | drop value _ ih =>
      simp only [List.reverse_cons]
      have joined := ih.append (.drop value .done)
      simpa using joined
  | add other _ ih =>
      simp only [List.reverse_cons]
      have joined := ih.append (.add other .done)
      simpa using joined

theorem edits_reverse {cost : Nat} {left right : List α} :
    Edits cost left.reverse right.reverse ↔ Edits cost left right := by
  constructor
  · intro edits
    simpa using edits.reverse
  · exact Edits.reverse

theorem isDistance_reverse {cost : Nat} {left right : List α} :
    IsDistance left.reverse right.reverse cost ↔ IsDistance left right cost := by
  simp only [IsDistance, edits_reverse]

theorem isDistance_nil_left (right : List α) : IsDistance [] right right.length := by
  induction right with
  | nil =>
      refine ⟨.done, ?_⟩
      intro other edits
      exact Nat.zero_le other
  | cons value right ih =>
      refine ⟨.add value ih.1, ?_⟩
      intro other edits
      cases edits with
      | add _ rest =>
          have bound := ih.2 _ rest
          simp only [List.length_cons]
          omega

theorem isDistance_nil_right (left : List α) : IsDistance left [] left.length := by
  induction left with
  | nil => exact isDistance_nil_left []
  | cons value left ih =>
      refine ⟨.drop value ih.1, ?_⟩
      intro other edits
      cases edits with
      | drop _ rest =>
          have bound := ih.2 _ rest
          simp only [List.length_cons]
          omega

/-- The least of the three ways to end, the first value the same or not. -/
theorem isDistance_cons [DecidableEq α] {left right : List α} {value other : α}
    {both dropped added : Nat} (diagonal : IsDistance left right both)
    (drops : IsDistance left (other :: right) dropped)
    (adds : IsDistance (value :: left) right added) :
    IsDistance (value :: left) (other :: right)
      (min (min (dropped + 1) (added + 1)) (both + if value = other then 0 else 1)) := by
  constructor
  · rcases min_choice (min (dropped + 1) (added + 1)) (both + if value = other then 0 else 1)
      with least | least
    · rw [least]
      rcases min_choice (dropped + 1) (added + 1) with least | least
      · rw [least]
        exact .drop value drops.1
      · rw [least]
        exact .add other adds.1
    · rw [least]
      by_cases same : value = other
      · rw [if_pos same, ← same]
        exact .keep value diagonal.1
      · rw [if_neg same]
        exact .swap value other diagonal.1
  · intro cost edits
    cases edits with
    | keep _ rest =>
        have bound := diagonal.2 _ rest
        simp only [if_true]
        omega
    | swap _ _ rest =>
        have bound := diagonal.2 _ rest
        split <;> omega
    | drop _ rest =>
        have bound := drops.2 _ rest
        omega
    | add _ rest =>
        have bound := adds.2 _ rest
        omega

theorem isDistance_concat [DecidableEq α] {left right : List α} {value other : α}
    {both dropped added : Nat} (diagonal : IsDistance left right both)
    (drops : IsDistance left (right ++ [other]) dropped)
    (adds : IsDistance (left ++ [value]) right added) :
    IsDistance (left ++ [value]) (right ++ [other])
      (min (min (dropped + 1) (added + 1)) (both + if value = other then 0 else 1)) := by
  rw [← isDistance_reverse] at diagonal drops adds ⊢
  simp only [List.reverse_append, List.reverse_cons, List.reverse_nil, List.nil_append,
    List.cons_append] at drops adds ⊢
  exact isDistance_cons diagonal drops adds

theorem IsDistance.eq_zero_iff {left right : List α} {cost : Nat}
    (distance : IsDistance left right cost) : cost = 0 ↔ left = right := by
  have free : ∀ {cost : Nat} {left right : List α}, Edits cost left right → cost = 0 →
      left = right := by
    intro cost left right edits
    induction edits with
    | done => exact fun _ => rfl
    | keep value _ ih => exact fun none => congrArg (value :: ·) (ih none)
    | _ => exact fun none => absurd none (Nat.succ_ne_zero _)
  have same : ∀ values : List α, Edits 0 values values := by
    intro values
    induction values with
    | nil => exact .done
    | cons value values ih => exact .keep value ih
  constructor
  · exact free distance.1
  · rintro rfl
    exact Nat.le_zero.mp (distance.2 0 (same left))

/-- The entries of a row from some column on: the distances to the parts of the right list that
begin with what is left of the column. -/
def Row (left before : List α) : List α → List Nat → Prop
  | [], row => ∃ entry, row = [entry] ∧ IsDistance left before entry
  | other :: right, row => ∃ entry later, row = entry :: later ∧ IsDistance left before entry ∧
      Row left (before ++ [other]) right later

theorem Row.head {left before right : List α} {row : List Nat} (isRow : Row left before right row) :
    ∃ entry later, row = entry :: later ∧ IsDistance left before entry := by
  cases right with
  | nil =>
      obtain ⟨entry, rfl, distance⟩ := isRow
      exact ⟨entry, [], rfl, distance⟩
  | cons other right =>
      obtain ⟨entry, later, rfl, distance, _⟩ := isRow
      exact ⟨entry, later, rfl, distance⟩

theorem Row.last {left before right : List α} {row : List Nat} (isRow : Row left before right row) :
    IsDistance left (before ++ right) (row.getLastD 0) := by
  induction right generalizing before row with
  | nil =>
      obtain ⟨entry, rfl, distance⟩ := isRow
      simpa using distance
  | cons other right ih =>
      obtain ⟨entry, later, rfl, _, rest⟩ := isRow
      have distance := ih rest
      obtain ⟨next, after, rfl, _⟩ := rest.head
      simpa using distance

theorem row_zero (before right : List α) :
    Row [] before right (List.range' before.length (right.length + 1)) := by
  induction right generalizing before with
  | nil => exact ⟨before.length, rfl, isDistance_nil_left before⟩
  | cons other right ih =>
      refine ⟨before.length, _, rfl, isDistance_nil_left before, ?_⟩
      have rest := ih (before ++ [other])
      rw [List.length_append, List.length_singleton] at rest
      exact rest

section Table

variable [DecidableEq α]

/-- A row of the table from the one above it; `left` is the entry before. -/
def editRow (value : α) : List α → Nat → List Nat → List Nat
  | other :: right, left, diagonal :: above :: row =>
      let least := above + 1
      let least := if left + 1 < least then left + 1 else least
      let change := if value = other then 0 else 1
      let least := if diagonal + change < least then diagonal + change else least
      least :: editRow value right least (above :: row)
  | _, _, _ => []

/-- The last row; the first entry of a row is its number. -/
def editRows (right : List α) : List α → Nat → List Nat → List Nat
  | [], _, row => row
  | value :: left, number, row =>
      editRows right left (number + 1) ((number + 1) :: editRow value right (number + 1) row)

/-- The last entry of the last row. -/
def editTable (left right : List α) : Nat :=
  (editRows right left 0 (List.range (right.length + 1))).getLastD 0

/-- A row filled in from its left end is the row of one value more. -/
theorem Row.next {left before right : List α} {row : List Nat} {value : α} {entry : Nat}
    (isRow : Row left before right row) (first : IsDistance (left ++ [value]) before entry) :
    Row (left ++ [value]) before right (entry :: editRow value right entry row) := by
  induction right generalizing before row entry with
  | nil =>
      obtain ⟨_, rfl, _⟩ := isRow
      exact ⟨entry, rfl, first⟩
  | cons other right ih =>
      obtain ⟨diagonal, later, rfl, both, rest⟩ := isRow
      obtain ⟨above, after, rfl, drops⟩ := rest.head
      refine ⟨entry, _, rfl, first, ?_⟩
      have distance := isDistance_concat both drops first
      have least : ∀ new old : Nat, (if new < old then new else old) = min old new := by
        intro new old
        split <;> omega
      simp only [editRow, least]
      exact ih rest distance

theorem row_editRows {left right : List α} {row : List Nat} (isRow : Row left [] right row)
    (more : List α) : Row (left ++ more) [] right (editRows right more left.length row) := by
  induction more generalizing left row with
  | nil => simpa [editRows] using isRow
  | cons value more ih =>
      have first : IsDistance (left ++ [value]) [] (left.length + 1) := by
        simpa using isDistance_nil_right (left ++ [value])
      have rest := ih (isRow.next first)
      simpa [editRows] using rest

/-- The table computes the distance. -/
theorem isDistance_editTable (left right : List α) :
    IsDistance left right (editTable left right) := by
  have rows := row_editRows (row_zero ([] : List α) right) left
  rw [List.length_nil, ← List.range_eq_range'] at rows
  exact rows.last

end Table

/-- A change shortens a list by one value at most. -/
theorem Edits.length_le {cost : Nat} {left right : List α} (edits : Edits cost left right) :
    left.length ≤ right.length + cost := by
  induction edits with
  | done => simp
  | _ =>
      simp only [List.length_cons]
      omega

section Nearest

/-- The value so far and its measure, or a value that is strictly nearer. -/
def nearer (measure : α → Nat) (best : Nat × Option α) (value : α) : Nat × Option α :=
  if measure value < best.1 then (measure value, some value) else best

/-- The first of the values with the least measure below a bound. -/
def nearest (measure : α → Nat) (bound : Nat) (values : List α) : Option α :=
  (values.foldl (nearer measure) (bound, none)).2

/-- What is known of the best value after some values have been seen. -/
def Best (measure : α → Nat) (bound : Nat) (seen : List α) (best : Nat × Option α) : Prop :=
  match best.2 with
  | none => best.1 = bound ∧ ∀ value ∈ seen, bound ≤ measure value
  | some found => best.1 = measure found ∧ measure found < bound ∧
      ∃ before after, seen = before ++ found :: after ∧
        (∀ value ∈ before, measure found < measure value) ∧
        ∀ value ∈ after, measure found ≤ measure value

theorem Best.next {measure : α → Nat} {bound : Nat} {seen : List α} {best : Nat × Option α}
    (known : Best measure bound seen best) (value : α) :
    Best measure bound (seen ++ [value]) (nearer measure best value) := by
  obtain ⟨least, found⟩ := best
  unfold nearer
  cases found with
  | none =>
      obtain ⟨rfl, far⟩ := known
      split
      next near =>
        refine ⟨rfl, near, seen, [], rfl, ?_, by simp⟩
        intro other member
        exact Nat.lt_of_lt_of_le near (far other member)
      next away =>
        refine ⟨rfl, ?_⟩
        intro other member
        rcases List.mem_append.mp member with earlier | last
        · exact far other earlier
        · rw [List.mem_singleton.mp last]
          exact Nat.le_of_not_lt away
  | some found =>
      obtain ⟨rfl, below, before, after, rfl, first, later⟩ := known
      split
      next near =>
        refine ⟨rfl, Nat.lt_trans near below, _, [], rfl, ?_, by simp⟩
        intro other member
        rcases List.mem_append.mp member with earlier | rest
        · exact Nat.lt_trans near (first other earlier)
        · rcases List.mem_cons.mp rest with rfl | rest
          · exact near
          · exact Nat.lt_of_lt_of_le near (later other rest)
      next away =>
        refine ⟨rfl, below, before, after ++ [value], by simp, first, ?_⟩
        intro other member
        rcases List.mem_append.mp member with earlier | last
        · exact later other earlier
        · rw [List.mem_singleton.mp last]
          exact Nat.le_of_not_lt away

theorem best_foldl {measure : α → Nat} {bound : Nat} {seen : List α} {best : Nat × Option α}
    (known : Best measure bound seen best) (values : List α) :
    Best measure bound (seen ++ values) (values.foldl (nearer measure) best) := by
  induction values generalizing seen best with
  | nil => simpa using known
  | cons value values ih =>
      have rest := ih (known.next value)
      simpa using rest

theorem nearest_eq_none {measure : α → Nat} {bound : Nat} {values : List α}
    (missed : nearest measure bound values = none) : ∀ value ∈ values, bound ≤ measure value := by
  have start : Best measure bound [] (bound, none) := ⟨rfl, by simp⟩
  have best := best_foldl start values
  unfold nearest at missed
  unfold Best at best
  rw [missed] at best
  exact best.2

theorem nearest_eq_some {measure : α → Nat} {bound : Nat} {values : List α} {found : α}
    (hit : nearest measure bound values = some found) :
    measure found < bound ∧ ∃ before after, values = before ++ found :: after ∧
      (∀ value ∈ before, measure found < measure value) ∧
      ∀ value ∈ after, measure found ≤ measure value := by
  have start : Best measure bound [] (bound, none) := ⟨rfl, by simp⟩
  have best := best_foldl start values
  unfold nearest at hit
  unfold Best at best
  rw [hit] at best
  exact best.2

end Nearest

end Rufux.Library
