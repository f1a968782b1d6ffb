import Mathlib

/-!
Straight-line computations on unsigned machine words, with an error exit. Running one
wraps at the word's width; a postcondition rule for each operation asks that it does not.
-/

namespace Rufux.Library

/-- The unsigned operations that can leave the range of a word. -/
inductive WordOp where
  | add
  | sub
  | mul
  deriving DecidableEq, Repr

namespace WordOp

def fits (width : Nat) : WordOp → Nat → Nat → Prop
  | .add, left, right => left + right < 2 ^ width
  | .sub, left, right => right ≤ left
  | .mul, left, right => left * right < 2 ^ width

def wrap (width : Nat) : WordOp → Nat → Nat → Nat
  | .add, left, right => (left + right) % 2 ^ width
  | .sub, left, right => (left + (2 ^ width - right % 2 ^ width)) % 2 ^ width
  | .mul, left, right => (left * right) % 2 ^ width

theorem wrap_add {width left right : Nat} (fits : left + right < 2 ^ width) :
    WordOp.add.wrap width left right = left + right :=
  Nat.mod_eq_of_lt fits

theorem wrap_mul {width left right : Nat} (fits : left * right < 2 ^ width) :
    WordOp.mul.wrap width left right = left * right :=
  Nat.mod_eq_of_lt fits

theorem wrap_sub {width left right : Nat} (word : left < 2 ^ width) (fits : right ≤ left) :
    WordOp.sub.wrap width left right = left - right := by
  have small : right % 2 ^ width = right := Nat.mod_eq_of_lt (by omega)
  have above : left + (2 ^ width - right) = left - right + 2 ^ width := by omega
  rw [wrap, small, above, Nat.add_mod_right]
  exact Nat.mod_eq_of_lt (by omega)

end WordOp

inductive WordProg (ε α : Type) where
  | done (value : α)
  | fail (error : ε)
  | word (op : WordOp) (left right : Nat) (next : Nat → WordProg ε α)

namespace WordProg

variable {ε α β : Type}

def bind : WordProg ε α → (α → WordProg ε β) → WordProg ε β
  | .done value, next => next value
  | .fail error, _ => .fail error
  | .word op left right rest, next => .word op left right fun result => (rest result).bind next

instance : Monad (WordProg ε) where
  pure := .done
  bind := .bind

def add (left right : Nat) : WordProg ε Nat := .word .add left right .done
def sub (left right : Nat) : WordProg ε Nat := .word .sub left right .done
def mul (left right : Nat) : WordProg ε Nat := .word .mul left right .done

def run (width : Nat) : WordProg ε α → Except ε α
  | .done value => .ok value
  | .fail error => .error error
  | .word op left right next => (next (op.wrap width left right)).run width

/-- No operation that the run performs wraps. -/
def NoWrap (width : Nat) : WordProg ε α → Prop
  | .done _ => True
  | .fail _ => True
  | .word op left right next =>
      op.fits width left right ∧ (next (op.wrap width left right)).NoWrap width

/-- The run wraps nowhere, and its result, if it has one, is as stated. -/
def Meets (width : Nat) (post : α → Prop) (prog : WordProg ε α) : Prop :=
  prog.NoWrap width ∧ ∀ value, prog.run width = .ok value → post value

section Rules

variable {width : Nat} {post : α → Prop}

theorem meets_done {value : α} (holds : post value) :
    Meets width post (.done value : WordProg ε α) := by
  refine ⟨trivial, fun result ran => ?_⟩
  cases ran
  exact holds

theorem meets_pure {value : α} (holds : post value) :
    Meets width post (pure value : WordProg ε α) :=
  meets_done holds

theorem meets_fail {error : ε} : Meets width post (.fail error : WordProg ε α) :=
  ⟨trivial, fun _ ran => nomatch ran⟩

theorem meets_word {op : WordOp} {left right : Nat} {next : Nat → WordProg ε α}
    (fits : op.fits width left right)
    (rest : Meets width post (next (op.wrap width left right))) :
    Meets width post (.word op left right next) :=
  ⟨⟨fits, rest.1⟩, rest.2⟩

theorem meets_bind {prog : WordProg ε β} {next : β → WordProg ε α} {middle : β → Prop}
    (first : Meets width middle prog)
    (rest : ∀ value, middle value → Meets width post (next value)) :
    Meets width post (prog >>= next) := by
  change Meets width post (prog.bind next)
  induction prog with
  | done value => exact rest value (first.2 value rfl)
  | fail error => exact meets_fail
  | word op left right branch ih => exact meets_word first.1.1 (ih _ ⟨first.1.2, first.2⟩)

/-- A subroutine whose result is known runs as that result. -/
theorem meets_bind_eq {prog : WordProg ε β} {next : β → WordProg ε α} {value : β}
    (first : Meets width (fun result => result = value) prog)
    (rest : Meets width post (next value)) : Meets width post (prog >>= next) := by
  apply meets_bind first
  rintro result rfl
  exact rest

theorem meets_mono {weaker : α → Prop} {prog : WordProg ε α} (meets : Meets width post prog)
    (implies : ∀ value, post value → weaker value) : Meets width weaker prog :=
  ⟨meets.1, fun value ran => implies value (meets.2 value ran)⟩

theorem meets_add {left right : Nat} {next : Nat → WordProg ε α}
    (fits : left + right < 2 ^ width) (rest : Meets width post (next (left + right))) :
    Meets width post (add left right >>= next) := by
  refine meets_word fits ?_
  rw [WordOp.wrap_add fits]
  exact rest

theorem meets_sub {left right : Nat} {next : Nat → WordProg ε α} (word : left < 2 ^ width)
    (fits : right ≤ left) (rest : Meets width post (next (left - right))) :
    Meets width post (sub left right >>= next) := by
  refine meets_word fits ?_
  rw [WordOp.wrap_sub word fits]
  exact rest

theorem meets_mul {left right : Nat} {next : Nat → WordProg ε α}
    (fits : left * right < 2 ^ width) (rest : Meets width post (next (left * right))) :
    Meets width post (mul left right >>= next) := by
  refine meets_word fits ?_
  rw [WordOp.wrap_mul fits]
  exact rest

/-- The result, if there is one, is as stated, whether or not an operation wraps. -/
def Yields (width : Nat) (post : α → Prop) (prog : WordProg ε α) : Prop :=
  ∀ value, prog.run width = .ok value → post value

theorem Meets.and {other : α → Prop} {prog : WordProg ε α} (meets : Meets width post prog)
    (yields : Yields width other prog) :
    Meets width (fun value => post value ∧ other value) prog :=
  ⟨meets.1, fun value ran => ⟨meets.2 value ran, yields value ran⟩⟩

theorem yields_pure {value : α} (holds : post value) :
    Yields width post (pure value : WordProg ε α) := by
  intro result ran
  cases ran
  exact holds

theorem yields_bind {prog : WordProg ε β} {next : β → WordProg ε α}
    (rest : ∀ value, Yields width post (next value)) : Yields width post (prog >>= next) := by
  change Yields width post (prog.bind next)
  induction prog with
  | done value => exact rest value
  | fail error => exact fun _ ran => nomatch ran
  | word op left right branch ih => exact ih _

end Rules

end WordProg

end Rufux.Library
