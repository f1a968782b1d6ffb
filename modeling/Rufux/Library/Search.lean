import Mathlib

/-!
Breadth-first search with tables that drop what no longer fits. A table of some capacity
holds the first elements of the unbounded one, so a search that fits in it is complete.
-/

namespace Rufux.Library

variable {α : Type}

theorem take_of_isPrefix {short long : List α} {capacity : Nat} (grown : short <+: long)
    (full : capacity ≤ short.length) : long.take capacity = short.take capacity := by
  obtain ⟨rest, rfl⟩ := grown
  exact List.take_append_of_le_length full

variable [DecidableEq α]

def add (table : List α) (item : α) : List α :=
  if item ∈ table then table else table ++ [item]

def addAll (table items : List α) : List α := items.foldl add table

/-- Adding to a table of a fixed capacity: a full one stays as it is. -/
def push (capacity : Nat) (table : List α) (item : α) : List α :=
  if item ∈ table ∨ capacity ≤ table.length then table else table ++ [item]

def pushAll (capacity : Nat) (table items : List α) : List α := items.foldl (push capacity) table

theorem mem_add {table : List α} {item other : α} :
    other ∈ add table item ↔ other ∈ table ∨ other = item := by
  unfold add
  split
  next known =>
    constructor
    · exact Or.inl
    · rintro (old | rfl)
      · exact old
      · exact known
  next fresh => simp

theorem mem_addAll {table items : List α} {other : α} :
    other ∈ addAll table items ↔ other ∈ table ∨ other ∈ items := by
  induction items generalizing table with
  | nil => simp [addAll]
  | cons item rest ih =>
      change other ∈ addAll (add table item) rest ↔ _
      rw [ih, mem_add, List.mem_cons, or_assoc]

theorem add_isPrefix (table : List α) (item : α) : table <+: add table item := by
  unfold add
  split
  · exact List.prefix_refl _
  · exact List.prefix_append _ _

theorem addAll_isPrefix (table items : List α) : table <+: addAll table items := by
  induction items generalizing table with
  | nil => exact List.prefix_refl _
  | cons item rest ih => exact (add_isPrefix table item).trans (ih (add table item))

theorem add_nodup {table : List α} (nodup : table.Nodup) (item : α) :
    (add table item).Nodup := by
  unfold add
  split
  next => exact nodup
  next fresh => exact List.nodup_append.mpr ⟨nodup, List.nodup_singleton _, by simp; grind⟩

theorem addAll_nodup {table : List α} (nodup : table.Nodup) (items : List α) :
    (addAll table items).Nodup := by
  induction items generalizing table with
  | nil => exact nodup
  | cons item rest ih => exact ih (add_nodup nodup item)

theorem push_take (capacity : Nat) (table : List α) (item : α) :
    push capacity (table.take capacity) item = (add table item).take capacity := by
  rcases Nat.lt_or_ge table.length capacity with room | full
  · rw [List.take_of_length_le (Nat.le_of_lt room)]
    unfold push add
    by_cases known : item ∈ table
    · rw [if_pos (Or.inl known), if_pos known, List.take_of_length_le (Nat.le_of_lt room)]
    · rw [if_neg (by simp [known, room]), if_neg known]
      exact (List.take_of_length_le (by simp; omega)).symm
  · rw [take_of_isPrefix (add_isPrefix table item) full]
    exact if_pos (Or.inr (by rw [List.length_take]; omega))

theorem pushAll_take (capacity : Nat) (table items : List α) :
    pushAll capacity (table.take capacity) items = (addAll table items).take capacity := by
  induction items generalizing table with
  | nil => rfl
  | cons item rest ih =>
      change pushAll capacity (push capacity (table.take capacity) item) rest = _
      rw [push_take, ih]
      rfl

theorem push_isPrefix (capacity : Nat) (table : List α) (item : α) :
    table <+: push capacity table item := by
  unfold push
  split
  · exact List.prefix_refl _
  · exact List.prefix_append _ _

theorem pushAll_isPrefix (capacity : Nat) (table items : List α) :
    table <+: pushAll capacity table items := by
  induction items generalizing table with
  | nil => exact List.prefix_refl _
  | cons item rest ih =>
      exact (push_isPrefix capacity table item).trans (ih (push capacity table item))

/-- A list without repetition inside a set is no longer than the set is large. -/
theorem length_le_of_nodup {items : List α} {space : Set α} {capacity : Nat}
    (nodup : items.Nodup) (inside : ∀ item ∈ items, item ∈ space)
    (small : space.encard ≤ capacity) : items.length ≤ capacity := by
  have card : items.toFinset.card = items.length := List.toFinset_card_of_nodup nodup
  have subset : (items.toFinset : Set α) ⊆ space := by
    intro item member
    exact inside item (by simpa using member)
  have bound := (Set.encard_le_encard subset).trans small
  rw [Set.encard_coe_eq_coe_finsetCard, card] at bound
  exact_mod_cast bound

section Search

variable (next : α → List α) (start : α)

/-- The queue after so many rounds; round `n` adds the successors of its `n`-th element. -/
def explore : Nat → List α
  | 0 => [start]
  | round + 1 =>
      match (explore round)[round]? with
      | none => explore round
      | some node => addAll (explore round) (next node)

/-- The same search with a queue that holds so many elements and drops the rest. -/
def search (capacity : Nat) : Nat → List α
  | 0 => [start]
  | round + 1 =>
      match (search capacity round)[round]? with
      | none => search capacity round
      | some node => pushAll capacity (search capacity round) (next node)

variable {next start}

theorem explore_succ_isPrefix (round : Nat) :
    explore next start round <+: explore next start (round + 1) := by
  rw [explore]
  split
  · exact List.prefix_refl _
  · exact addAll_isPrefix _ _

theorem search_eq_take {capacity : Nat} (positive : 0 < capacity) (round : Nat) :
    search next start capacity round = (explore next start round).take capacity := by
  induction round with
  | zero => exact (List.take_of_length_le positive).symm
  | succ round ih =>
      rw [search, explore, ih]
      rcases Nat.lt_or_ge round capacity with inside | outside
      · rw [List.getElem?_take_of_lt inside]
        cases (explore next start round)[round]? with
        | none => rfl
        | some node => exact pushAll_take capacity _ _
      · rw [List.getElem?_eq_none (by rw [List.length_take]; omega)]
        cases present : (explore next start round)[round]? with
        | none => rfl
        | some node =>
            have long := (List.getElem?_eq_some_iff.mp present).1
            exact (take_of_isPrefix (addAll_isPrefix _ _) (by omega)).symm

theorem search_isPrefix (capacity round : Nat) :
    search next start capacity round <+: search next start capacity (round + 1) := by
  rw [search]
  split
  · exact List.prefix_refl _
  · exact pushAll_isPrefix capacity _ _

/-- A search that has visited its whole queue stays as it is. -/
theorem search_ended {capacity round : Nat}
    (ended : (search next start capacity round).length ≤ round) (more : Nat) :
    search next start capacity (round + more) = search next start capacity round := by
  induction more with
  | zero => rfl
  | succ more ih => rw [← Nat.add_assoc, search, ih, List.getElem?_eq_none (by omega)]

abbrev Reaches (next : α → List α) : α → α → Prop :=
  Relation.ReflTransGen fun node successor => successor ∈ next node

theorem explore_sound (round : Nat) :
    ∀ node ∈ explore next start round, Reaches next start node := by
  induction round with
  | zero =>
      intro node member
      rw [List.mem_singleton.mp member]
  | succ round ih =>
      intro node member
      rw [explore] at member
      split at member
      next => exact ih node member
      next parent present =>
        rcases mem_addAll.mp member with old | new
        · exact ih node old
        · exact (ih parent (List.mem_of_getElem? present)).tail new

theorem explore_nodup (round : Nat) : (explore next start round).Nodup := by
  induction round with
  | zero => exact List.nodup_singleton _
  | succ round ih =>
      rw [explore]
      split
      · exact ih
      · exact addAll_nodup ih _

theorem start_mem_explore (round : Nat) : start ∈ explore next start round := by
  induction round with
  | zero => exact List.mem_singleton_self _
  | succ round ih => exact (explore_succ_isPrefix round).subset ih

/-- What was taken from the queue has all its successors in it. -/
theorem explore_closed (round : Nat) {index : Nat} {node : α} (taken : index < round)
    (present : (explore next start round)[index]? = some node) :
    ∀ successor ∈ next node, successor ∈ explore next start round := by
  induction round with
  | zero => omega
  | succ round ih =>
      rw [explore] at present ⊢
      split at present
      next ended =>
        have short := List.getElem?_eq_none_iff.mp ended
        have found := (List.getElem?_eq_some_iff.mp present).1
        exact ih (by omega) present
      next current reached =>
        have long := (List.getElem?_eq_some_iff.mp reached).1
        have same : (explore next start round)[index]? = some node := by
          have inside : index < (explore next start round).length := by omega
          rw [← present, List.prefix_iff_getElem?.mp (addAll_isPrefix _ _) index inside]
          exact List.getElem?_eq_getElem inside
        intro successor member
        rcases Nat.lt_or_ge index round with earlier | last
        · exact mem_addAll.mpr (Or.inl (ih earlier same successor member))
        · obtain rfl : index = round := by omega
          rw [reached] at same
          cases same
          exact mem_addAll.mpr (Or.inr member)

theorem explore_complete {round : Nat} (ended : (explore next start round).length ≤ round)
    {node : α} (reached : Reaches next start node) : node ∈ explore next start round := by
  induction reached with
  | refl => exact start_mem_explore round
  | tail _ edge ih =>
      obtain ⟨index, present⟩ := List.getElem?_of_mem ih
      have inside := (List.getElem?_eq_some_iff.mp present).1
      exact explore_closed round (by omega) present _ edge

/-- A search whose queue has room for all that is reachable finds all of it. -/
theorem search_complete {capacity : Nat} (positive : 0 < capacity)
    (small : {node | Reaches next start node}.encard ≤ capacity) {node : α}
    (reached : Reaches next start node) : node ∈ search next start capacity capacity := by
  have short : (explore next start capacity).length ≤ capacity :=
    length_le_of_nodup (explore_nodup capacity) (explore_sound capacity) small
  rw [search_eq_take positive, List.take_of_length_le short]
  exact explore_complete short reached

end Search

end Rufux.Library
