import Mathlib

/-!
Positional writes into a finite sequence: growing with a blank element, cutting, and
overwriting a range that may start past the end.
-/

namespace Rufux.Library

variable {α : Type}

/-- Cut a sequence to a size, or grow it to that size with blanks. -/
def resize (blank : α) (old : List α) (size : Nat) : List α :=
  old.take size ++ List.replicate (size - old.length) blank

/-- Overwrite at an offset. Writing nothing changes nothing; a gap reads as blanks. -/
def splice (blank : α) (old : List α) (offset : Nat) : List α → List α
  | [] => old
  | new => resize blank old offset ++ new ++ old.drop (offset + new.length)

@[simp] theorem resize_length (blank : α) (old : List α) (size : Nat) :
    (resize blank old size).length = size := by
  simp only [resize, List.length_append, List.length_take, List.length_replicate]
  omega

theorem resize_self (blank : α) (old : List α) : resize blank old old.length = old := by
  simp [resize]

theorem getElem?_resize (blank : α) (old : List α) (size index : Nat) :
    (resize blank old size)[index]? =
      if index < size then some (old[index]?.getD blank) else none := by
  rcases Nat.lt_or_ge index size with below | past
  · rw [if_pos below]
    rcases Nat.lt_or_ge index old.length with inside | outside
    · rw [resize, List.getElem?_append_left (by simp; omega), List.getElem?_take_of_lt below]
      simp [inside]
    · rw [resize, List.getElem?_append_right (by simp; omega), List.getElem?_replicate]
      simp [List.getElem?_eq_none outside]
      omega
  · rw [if_neg (by omega)]
    exact List.getElem?_eq_none (by simpa using past)

@[simp] theorem splice_nil (blank : α) (old : List α) (offset : Nat) :
    splice blank old offset [] = old := rfl

theorem splice_of_ne_nil (blank : α) (old new : List α) (offset : Nat) (nonempty : new ≠ []) :
    splice blank old offset new =
      resize blank old offset ++ new ++ old.drop (offset + new.length) := by
  cases new with
  | nil => exact absurd rfl nonempty
  | cons head tail => rfl

theorem splice_length (blank : α) (old new : List α) (offset : Nat) (nonempty : new ≠ []) :
    (splice blank old offset new).length = max old.length (offset + new.length) := by
  rw [splice_of_ne_nil blank old new offset nonempty]
  simp only [List.length_append, resize_length, List.length_drop]
  omega

/-- Every element of an overwritten sequence: the blank-padded old one before the range,
the new one inside it, the old one after it. -/
theorem getElem?_splice (blank : α) (old new : List α) (offset index : Nat) (nonempty : new ≠ []) :
    (splice blank old offset new)[index]? =
      if index < offset then some (old[index]?.getD blank)
      else if index < offset + new.length then new[index - offset]?
      else old[index]? := by
  rw [splice_of_ne_nil blank old new offset nonempty]
  rcases Nat.lt_or_ge index offset with before | reached
  · rw [if_pos before, List.append_assoc, List.getElem?_append_left (by simpa using before),
      getElem?_resize, if_pos before]
  · rw [if_neg (by omega)]
    rcases Nat.lt_or_ge index (offset + new.length) with inside | past
    · rw [if_pos inside, List.append_assoc, List.getElem?_append_right (by simpa using reached),
        resize_length, List.getElem?_append_left (by omega)]
    · rw [if_neg (by omega), List.getElem?_append_right (by simpa using past)]
      simp only [List.length_append, resize_length, List.getElem?_drop]
      congr 1
      omega

/-- Growing a sequence up to the offset first does not change what a write leaves. -/
theorem splice_resize (blank : α) (old new : List α) (offset : Nat) (nonempty : new ≠ [])
    (gap : old.length ≤ offset) :
    splice blank (resize blank old offset) offset new = splice blank old offset new := by
  apply List.ext_getElem?
  intro index
  rw [getElem?_splice blank _ new offset index nonempty,
    getElem?_splice blank old new offset index nonempty]
  by_cases before : index < offset
  · rw [if_pos before, if_pos before, getElem?_resize, if_pos before]
    rfl
  · simp only [before, if_false]
    split
    · rfl
    · rw [getElem?_resize, if_neg before, List.getElem?_eq_none (by omega)]

/-- Two consecutive writes are one write of the joined data. -/
theorem splice_append (blank : α) (old first second : List α) (offset : Nat)
    (nonempty : first ≠ []) :
    splice blank (splice blank old offset first) (offset + first.length) second =
      splice blank old offset (first ++ second) := by
  by_cases last : second = []
  · subst second
    simp
  · apply List.ext_getElem?
    intro index
    rw [getElem?_splice blank _ second _ index last,
      getElem?_splice blank old (first ++ second) offset index (by simp [nonempty]),
      getElem?_splice blank old first offset index nonempty]
    simp only [List.length_append]
    by_cases before : index < offset
    · have within : index < offset + first.length := by omega
      simp [before, within]
    · by_cases inFirst : index < offset + first.length
      · have inBoth : index < offset + (first.length + second.length) := by omega
        have present : first[index - offset]? = some first[index - offset] :=
          List.getElem?_eq_getElem (by omega)
        simp only [before, inFirst, inBoth, if_true, if_false]
        rw [List.getElem?_append_left (by omega), present]
        rfl
      · simp only [before, inFirst, if_false]
        by_cases inSecond : index < offset + (first.length + second.length)
        · have shifted : index < offset + first.length + second.length := by omega
          simp only [inSecond, shifted, if_true]
          rw [List.getElem?_append_right (by omega)]
          congr 1
          omega
        · have shifted : ¬ index < offset + first.length + second.length := by omega
          simp only [inSecond, shifted, if_false]

/-- A first part of some data and what is left after as many elements. -/
theorem take_append_drop_take (data : List α) (count : Nat) :
    data.take count ++ data.drop (data.take count).length = data := by
  rw [List.length_take]
  rcases Nat.le_total count data.length with short | long
  · rw [Nat.min_eq_left short, List.take_append_drop]
  · rw [Nat.min_eq_right long, List.take_of_length_le long, List.drop_length, List.append_nil]

/-- A write done in two parts, the first of them not empty. -/
theorem splice_take_drop (blank : α) (old data : List α) (offset count : Nat)
    (moving : data.take count ≠ []) :
    splice blank (splice blank old offset (data.take count)) (offset + (data.take count).length)
        (data.drop (data.take count).length) = splice blank old offset data := by
  rw [splice_append blank old _ _ offset moving, take_append_drop_take]

end Rufux.Library
