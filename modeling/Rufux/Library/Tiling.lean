import Mathlib

/-!
Spans of positions, and those that follow one another without a gap.
-/

namespace Rufux.Library

structure Span where
  start : Nat
  count : Nat
deriving DecidableEq

/-- The positions of spans, one after the other. -/
def positions (spans : List Span) : List Nat :=
  spans.flatMap fun span => List.range' span.start span.count

def covered (spans : List Span) : Nat := (spans.map (·.count)).sum

/-- The spans fill the interval in their order. -/
def Tiles : Nat → List Span → Nat → Prop
  | start, [], stop => start = stop
  | start, span :: spans, stop => span.start = start ∧ Tiles (start + span.count) spans stop

section Tiling

variable {start stop : Nat} {span : Span} {spans more : List Span}

@[simp]
theorem positions_nil : positions [] = [] := rfl

@[simp]
theorem positions_cons :
    positions (span :: spans) = List.range' span.start span.count ++ positions spans :=
  List.flatMap_cons

@[simp]
theorem positions_append : positions (spans ++ more) = positions spans ++ positions more :=
  List.flatMap_append

@[simp]
theorem covered_cons : covered (span :: spans) = span.count + covered spans := by
  simp [covered]

theorem length_positions : (positions spans).length = covered spans := by
  induction spans with
  | nil => rfl
  | cons span spans ih =>
      rw [positions_cons, List.length_append, List.length_range', ih, covered_cons]

theorem positions_perm (perm : spans.Perm more) : (positions spans).Perm (positions more) :=
  perm.flatMap_right _

theorem covered_perm (perm : spans.Perm more) : covered spans = covered more := by
  rw [← length_positions, ← length_positions, (positions_perm perm).length_eq]

theorem start_mem_positions (inside : span ∈ spans) (nonempty : span.count ≠ 0) :
    span.start ∈ positions spans :=
  List.mem_flatMap.mpr ⟨span, inside, List.mem_range'_1.mpr (by omega)⟩

theorem Tiles.length (tiles : Tiles start spans stop) : stop = start + covered spans := by
  induction spans generalizing start with
  | nil => exact tiles.symm
  | cons span spans ih =>
      rw [ih tiles.2, covered_cons, Nat.add_assoc]

theorem tiles_append : Tiles start (spans ++ more) stop ↔
    Tiles start spans (start + covered spans) ∧ Tiles (start + covered spans) more stop := by
  induction spans generalizing start with
  | nil => exact ⟨fun tiles => ⟨rfl, tiles⟩, fun tiles => tiles.2⟩
  | cons span spans ih =>
      rw [List.cons_append, covered_cons, ← Nat.add_assoc]
      exact ⟨fun tiles => ⟨⟨tiles.1, (ih.mp tiles.2).1⟩, (ih.mp tiles.2).2⟩,
        fun tiles => ⟨tiles.1.1, ih.mpr ⟨tiles.1.2, tiles.2⟩⟩⟩

/-- Spans that fill an interval have each position of it once, in order. -/
theorem Tiles.positions (tiles : Tiles start spans stop) :
    positions spans = List.range' start (stop - start) := by
  induction spans generalizing start with
  | nil =>
      cases tiles
      rw [Nat.sub_self]
      rfl
  | cons span spans ih =>
      obtain ⟨rfl, rest⟩ := tiles
      have whole : stop - span.start = span.count + (stop - (span.start + span.count)) := by
        have := rest.length
        omega
      rw [positions_cons, ih rest, whole, List.range'_append_1]

theorem Tiles.start_le (tiles : Tiles start spans stop) (inside : span ∈ spans) :
    start ≤ span.start := by
  induction spans generalizing start with
  | nil => cases inside
  | cons first spans ih =>
      rcases List.mem_cons.mp inside with rfl | later
      · exact Nat.le_of_eq tiles.1.symm
      · exact Nat.le_trans (Nat.le_add_right _ _) (ih tiles.2 later)

theorem Tiles.end_le (tiles : Tiles start spans stop) (inside : span ∈ spans) :
    span.start + span.count ≤ stop := by
  induction spans generalizing start with
  | nil => cases inside
  | cons first spans ih =>
      rcases List.mem_cons.mp inside with rfl | later
      · have here := tiles.1
        have behind := tiles.2.length
        omega
      · exact ih tiles.2 later

/-- They start one behind the other. -/
theorem Tiles.increasing (tiles : Tiles start spans stop)
    (nonempty : ∀ span ∈ spans, span.count ≠ 0) :
    spans.Pairwise fun first second => first.start < second.start := by
  induction spans generalizing start with
  | nil => exact .nil
  | cons span spans ih =>
      refine List.pairwise_cons.mpr ⟨?_, ih tiles.2 fun other inside =>
        nonempty other (List.mem_cons_of_mem _ inside)⟩
      intro other inside
      have behind := tiles.2.start_le inside
      have some := nonempty span List.mem_cons_self
      have here := tiles.1
      omega

end Tiling

end Rufux.Library
