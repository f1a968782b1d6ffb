import Mathlib

/-!
Handing out a list in pages under a size budget, each page cut from the list as it stands
when the page is asked for, the mark between pages being a position.
-/

namespace Rufux.Library

variable {α : Type}

/-- The page that fits a budget. An element is weighed by `estimate` before it is taken
and by `actual` once it is; the first element is taken whatever it weighs. -/
def takePage (estimate actual : α → Nat) (limit : Nat) : Nat → Bool → List α → List α
  | _, _, [] => []
  | used, emitted, item :: rest =>
      if emitted = true ∧ limit < used + estimate item then []
      else item :: takePage estimate actual limit (used + actual item) true rest

theorem takePage_isPrefix (estimate actual : α → Nat) (limit used : Nat) (emitted : Bool)
    (items : List α) : takePage estimate actual limit used emitted items <+: items := by
  induction items generalizing used emitted with
  | nil => exact List.prefix_refl []
  | cons item rest ih =>
      rw [takePage]
      split
      · exact List.nil_prefix
      · exact List.cons_prefix_cons.mpr ⟨rfl, ih _ _⟩

theorem takePage_ne_nil (estimate actual : α → Nat) (limit used : Nat) {items : List α}
    (pending : items ≠ []) : takePage estimate actual limit used false items ≠ [] := by
  cases items with
  | nil => exact absurd rfl pending
  | cons item rest => simp [takePage]

/-- One page: the list as it stood then, and how many elements were handed out. -/
structure Cut (α : Type) where
  snapshot : List α
  taken : Nat

end Rufux.Library
