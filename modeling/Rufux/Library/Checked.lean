import Mathlib

/-!
Computations over a buffer in which every read, sum and difference is checked, and the rules
for those in which no check fails.
-/

namespace Rufux.Library

inductive Fault where
  /-- A read of a byte that the buffer does not have. -/
  | outside (index : Nat)
  /-- A result that its type does not hold. -/
  | wraps
deriving DecidableEq

abbrev Checked (α : Type) : Type := Except Fault α

/-- A result of an unsigned type. -/
def fits (width value : Nat) : Checked Nat :=
  if value < 2 ^ width then .ok value else .error .wraps

/-- A `size_t`. -/
abbrev size (value : Nat) : Checked Nat := fits 64 value

def minus (whole part : Nat) : Checked Nat :=
  if part ≤ whole then .ok (whole - part) else .error .wraps

section Reads

variable (b : List UInt8) (p : Nat)

def byteAt : Checked Nat :=
  match b[p]? with
  | some byte => .ok byte.toNat
  | none => .error (.outside p)

def rangeAt (count : Nat) : Checked (List UInt8) :=
  if p + count ≤ b.length then .ok ((b.drop p).take count) else .error (.outside (p + count - 1))

def rd16 : Checked Nat := do
  let low ← byteAt b p
  let high ← byteAt b (p + 1)
  pure (low + high * 2 ^ 8)

def rd32 : Checked Nat := do
  let first ← byteAt b p
  let second ← byteAt b (p + 1)
  let third ← byteAt b (p + 2)
  let fourth ← byteAt b (p + 3)
  pure (first + second * 2 ^ 8 + third * 2 ^ 16 + fourth * 2 ^ 24)

/-- The bytes of a C string up to its terminator. -/
def stringIn : List UInt8 → Nat → Checked (List UInt8)
  | [], index => .error (.outside index)
  | byte :: rest, index =>
      if byte = 0 then .ok []
      else do
        let later ← stringIn rest (index + 1)
        pure (byte :: later)

/-! What the reads return inside the buffer. -/

def byteOf : Nat := (b[p]?.getD 0).toNat

def le16 : Nat := byteOf b p + byteOf b (p + 1) * 2 ^ 8

def le32 : Nat :=
  byteOf b p + byteOf b (p + 1) * 2 ^ 8 + byteOf b (p + 2) * 2 ^ 16 + byteOf b (p + 3) * 2 ^ 24

end Reads

/-- No check fails, and the result is one of these. -/
def Goes {α : Type} (computation : Checked α) (post : α → Prop) : Prop :=
  ∃ value, computation = .ok value ∧ post value

section Rules

variable {α β : Type} {computation : Checked α} {rest : α → Checked β} {middle post' : α → Prop}
  {post : β → Prop} {value : α} {b : List UInt8} {p width count whole part : Nat}

theorem goes_pure {post : α → Prop} (holds : post value) : Goes (pure value) post :=
  ⟨value, rfl, holds⟩

theorem Goes.bind (first : Goes computation middle)
    (second : ∀ value, middle value → Goes (rest value) post) : Goes (computation >>= rest) post := by
  obtain ⟨value, same, holds⟩ := first
  rw [same]
  exact second value holds

theorem Goes.mono (goes : Goes computation middle) (implies : ∀ value, middle value → post' value) :
    Goes computation post' := by
  obtain ⟨value, same, holds⟩ := goes
  exact ⟨value, same, implies value holds⟩

theorem Goes.of_eq (goes : Goes computation middle) (same : computation = .ok value) :
    middle value := by
  obtain ⟨other, returned, holds⟩ := goes
  rw [same] at returned
  cases returned
  exact holds

theorem Goes.eq (goes : Goes computation (· = value)) : computation = .ok value := by
  obtain ⟨_, same, rfl⟩ := goes
  exact same

@[simp]
theorem ok_bind (value : α) (rest : α → Checked β) : (Except.ok value >>= rest) = rest value := rfl

theorem of_bind_eq_ok {result : β} (ran : computation >>= rest = .ok result) :
    ∃ value, computation = .ok value ∧ rest value = .ok result := by
  cases computation with
  | error fault => cases ran
  | ok value => exact ⟨value, rfl, ran⟩

theorem of_fits_eq_ok {value result : Nat} (ran : fits width value = .ok result) :
    result = value := by
  unfold fits at ran
  split at ran
  · cases ran
    rfl
  · cases ran

theorem goes_fits {value : Nat} (small : value < 2 ^ width) : Goes (fits width value) (· = value) :=
  ⟨value, if_pos small, rfl⟩

theorem goes_minus (less : part ≤ whole) : Goes (minus whole part) (· = whole - part) :=
  ⟨_, if_pos less, rfl⟩

theorem byteOf_lt (b : List UInt8) (p : Nat) : byteOf b p < 2 ^ 8 := UInt8.toNat_lt _

theorem le16_lt (b : List UInt8) (p : Nat) : le16 b p < 2 ^ 16 := by
  have low := byteOf_lt b p
  have high := byteOf_lt b (p + 1)
  unfold le16
  omega

theorem le32_lt (b : List UInt8) (p : Nat) : le32 b p < 2 ^ 32 := by
  have first := byteOf_lt b p
  have second := byteOf_lt b (p + 1)
  have third := byteOf_lt b (p + 2)
  have fourth := byteOf_lt b (p + 3)
  unfold le32
  omega

theorem goes_byteAt (inside : p < b.length) : Goes (byteAt b p) (· = byteOf b p) := by
  refine ⟨byteOf b p, ?_, rfl⟩
  unfold byteAt byteOf
  rw [List.getElem?_eq_getElem inside]
  rfl

theorem goes_rangeAt (inside : p + count ≤ b.length) :
    Goes (rangeAt b p count) (· = (b.drop p).take count) :=
  ⟨_, if_pos inside, rfl⟩

theorem goes_rd16 (inside : p + 2 ≤ b.length) : Goes (rd16 b p) (· = le16 b p) := by
  refine (goes_byteAt (by omega)).bind ?_
  rintro _ rfl
  refine (goes_byteAt (by omega)).bind ?_
  rintro _ rfl
  exact goes_pure rfl

theorem goes_rd32 (inside : p + 4 ≤ b.length) : Goes (rd32 b p) (· = le32 b p) := by
  refine (goes_byteAt (by omega)).bind ?_
  rintro _ rfl
  refine (goes_byteAt (by omega)).bind ?_
  rintro _ rfl
  refine (goes_byteAt (by omega)).bind ?_
  rintro _ rfl
  refine (goes_byteAt (by omega)).bind ?_
  rintro _ rfl
  exact goes_pure rfl

/-- A string ends where its terminator stands, at the latest behind all other bytes. -/
theorem goes_stringIn (text : List UInt8) (index : Nat) :
    Goes (stringIn (text ++ [0]) index) (· = text.takeWhile (· ≠ 0)) := by
  induction text generalizing index with
  | nil => exact ⟨[], rfl, rfl⟩
  | cons byte rest ih =>
      rw [List.cons_append]
      unfold stringIn
      by_cases ends : byte = 0
      · rw [if_pos ends]
        exact ⟨[], rfl, by rw [List.takeWhile_cons_of_neg (by simpa using ends)]⟩
      · rw [if_neg ends]
        refine (ih (index + 1)).bind ?_
        rintro _ rfl
        exact goes_pure (by rw [List.takeWhile_cons_of_pos (by simpa using ends)])

end Rules

end Rufux.Library
