import Mathlib

/-!
Directories as finite lists of named entries: looking a name up, adding an entry at a
place the file system chooses, and taking one away.
-/

namespace Rufux.Library

structure DirEntry (ν : Type) where
  name : ν
  ino : Nat
  deriving DecidableEq, Repr

section Rearrange

variable {α : Type} [DecidableEq α]

/-- A proposed rearrangement of a list is used only if it is one. -/
def rearrange (arrange : List α → List α) (list : List α) : List α :=
  if (arrange list).isPerm list then arrange list else list

theorem rearrange_perm (arrange : List α → List α) (list : List α) :
    (rearrange arrange list).Perm list := by
  unfold rearrange
  split
  · rename_i checked
    exact List.isPerm_iff.mp checked
  · exact List.Perm.refl list

end Rearrange

variable {ν : Type}

/-- No two entries carry the same name. -/
def UniqueNames (list : List (DirEntry ν)) : Prop := (list.map DirEntry.name).Nodup

theorem UniqueNames.eq_of_mem {list : List (DirEntry ν)} (unique : UniqueNames list)
    {name : ν} {first second : Nat} (left : (⟨name, first⟩ : DirEntry ν) ∈ list)
    (right : (⟨name, second⟩ : DirEntry ν) ∈ list) : first = second := by
  have same := List.inj_on_of_nodup_map unique left right rfl
  exact congrArg DirEntry.ino same

theorem UniqueNames.nodup {list : List (DirEntry ν)} (unique : UniqueNames list) : list.Nodup :=
  List.Nodup.of_map _ unique

theorem UniqueNames.of_perm {first second : List (DirEntry ν)} (unique : UniqueNames first)
    (order : second.Perm first) : UniqueNames second :=
  ((order.map DirEntry.name).nodup_iff).mpr unique

variable [DecidableEq ν]

def findEntry (list : List (DirEntry ν)) (name : ν) : Option Nat :=
  (list.find? fun entry => decide (entry.name = name)).map DirEntry.ino

def insertEntry (arrange : List (DirEntry ν) → List (DirEntry ν)) (list : List (DirEntry ν))
    (name : ν) (ino : Nat) : List (DirEntry ν) :=
  rearrange arrange (list ++ [⟨name, ino⟩])

theorem findEntry_mem {list : List (DirEntry ν)} {name : ν} {ino : Nat}
    (found : findEntry list name = some ino) : (⟨name, ino⟩ : DirEntry ν) ∈ list := by
  simp only [findEntry, Option.map_eq_some_iff] at found
  obtain ⟨entry, located, number⟩ := found
  have named : entry.name = name := by simpa using List.find?_some located
  have member := List.mem_of_find?_eq_some located
  obtain ⟨entryName, entryIno⟩ := entry
  simp only at named number
  subst named number
  exact member

theorem findEntry_eq_none {list : List (DirEntry ν)} {name : ν} :
    findEntry list name = none ↔ ∀ entry ∈ list, entry.name ≠ name := by
  simp [findEntry, List.find?_eq_none]

theorem eq_nil_of_findEntry {list : List (DirEntry ν)}
    (bare : ∀ name, findEntry list name = none) : list = [] := by
  cases list with
  | nil => rfl
  | cons entry rest => exact absurd rfl (findEntry_eq_none.mp (bare entry.name) entry List.mem_cons_self)

theorem findEntry_isSome_of_mem {list : List (DirEntry ν)} {name : ν} {ino : Nat}
    (member : (⟨name, ino⟩ : DirEntry ν) ∈ list) : findEntry list name ≠ none := by
  intro absent
  exact findEntry_eq_none.mp absent _ member rfl

theorem UniqueNames.findEntry_eq {list : List (DirEntry ν)} (unique : UniqueNames list)
    {name : ν} {ino : Nat} (member : (⟨name, ino⟩ : DirEntry ν) ∈ list) :
    findEntry list name = some ino := by
  cases found : findEntry list name with
  | none => exact absurd found (findEntry_isSome_of_mem member)
  | some other => rw [unique.eq_of_mem (findEntry_mem found) member]

theorem insertEntry_perm (arrange : List (DirEntry ν) → List (DirEntry ν))
    (list : List (DirEntry ν)) (name : ν) (ino : Nat) :
    (insertEntry arrange list name ino).Perm (⟨name, ino⟩ :: list) :=
  (rearrange_perm arrange _).trans List.perm_append_comm

theorem mem_insertEntry {arrange : List (DirEntry ν) → List (DirEntry ν)}
    {list : List (DirEntry ν)} {name : ν} {ino : Nat} {entry : DirEntry ν} :
    entry ∈ insertEntry arrange list name ino ↔ entry = ⟨name, ino⟩ ∨ entry ∈ list := by
  rw [(insertEntry_perm arrange list name ino).mem_iff, List.mem_cons]

theorem findEntry_insertEntry_self (arrange : List (DirEntry ν) → List (DirEntry ν))
    {list : List (DirEntry ν)} {name : ν} (free : findEntry list name = none) (ino : Nat) :
    findEntry (insertEntry arrange list name ino) name = some ino := by
  have present : (⟨name, ino⟩ : DirEntry ν) ∈ insertEntry arrange list name ino :=
    mem_insertEntry.mpr (.inl rfl)
  cases found : findEntry (insertEntry arrange list name ino) name with
  | none => exact absurd found (findEntry_isSome_of_mem present)
  | some other =>
      rcases mem_insertEntry.mp (findEntry_mem found) with added | old
      · cases added
        rfl
      · exact absurd rfl (findEntry_eq_none.mp free _ old)

theorem UniqueNames.insertEntry {list : List (DirEntry ν)} (unique : UniqueNames list)
    (arrange : List (DirEntry ν) → List (DirEntry ν)) {name : ν}
    (free : findEntry list name = none) (ino : Nat) : UniqueNames (insertEntry arrange list name ino) := by
  have order := (insertEntry_perm arrange list name ino).map DirEntry.name
  refine (order.nodup_iff).mpr (List.nodup_cons.mpr ⟨?_, unique⟩)
  intro present
  obtain ⟨entry, member, named⟩ := List.mem_map.mp present
  exact findEntry_eq_none.mp free entry member named

/-- An added entry does not touch the other names. -/
theorem findEntry_insertEntry_other (arrange : List (DirEntry ν) → List (DirEntry ν))
    {list : List (DirEntry ν)} (unique : UniqueNames list) {name other : ν}
    (free : findEntry list name = none) (different : other ≠ name) {ino : Nat} :
    findEntry (insertEntry arrange list name ino) other = findEntry list other := by
  have stillUnique := unique.insertEntry arrange free ino
  cases found : findEntry list other with
  | some number =>
      exact stillUnique.findEntry_eq (mem_insertEntry.mpr (.inr (findEntry_mem found)))
  | none =>
      rw [findEntry_eq_none]
      intro entry present named
      rcases mem_insertEntry.mp present with rfl | old
      · exact different named.symm
      · exact findEntry_eq_none.mp found entry old named

theorem UniqueNames.erase {list : List (DirEntry ν)} (unique : UniqueNames list)
    (entry : DirEntry ν) : UniqueNames (list.erase entry) :=
  unique.sublist (List.erase_sublist.map _)

theorem UniqueNames.mem_erase {list : List (DirEntry ν)} (unique : UniqueNames list)
    {entry other : DirEntry ν} : other ∈ list.erase entry ↔ other ≠ entry ∧ other ∈ list :=
  unique.nodup.mem_erase_iff

/-- Once an entry is taken away, its name is free. -/
theorem UniqueNames.findEntry_erase_self {list : List (DirEntry ν)} (unique : UniqueNames list)
    {name : ν} {ino : Nat} (member : (⟨name, ino⟩ : DirEntry ν) ∈ list) :
    findEntry (list.erase ⟨name, ino⟩) name = none := by
  rw [findEntry_eq_none]
  intro entry kept named
  obtain ⟨different, present⟩ := unique.mem_erase.mp kept
  obtain ⟨entryName, entryIno⟩ := entry
  simp only at named
  subst named
  exact different (by rw [unique.eq_of_mem present member])

theorem UniqueNames.findEntry_iff {list : List (DirEntry ν)} (unique : UniqueNames list)
    {name : ν} {ino : Nat} :
    findEntry list name = some ino ↔ (⟨name, ino⟩ : DirEntry ν) ∈ list :=
  ⟨findEntry_mem, unique.findEntry_eq⟩

/-- Taking an entry away does not touch the other names. -/
theorem UniqueNames.findEntry_erase_of_ne {list : List (DirEntry ν)} (unique : UniqueNames list)
    {name : ν} {entry : DirEntry ν} (different : entry.name ≠ name) :
    findEntry (list.erase entry) name = findEntry list name := by
  apply Option.ext
  intro ino
  rw [(unique.erase entry).findEntry_iff, unique.findEntry_iff, unique.mem_erase]
  constructor
  · exact fun kept => kept.2
  · intro present
    refine ⟨?_, present⟩
    rintro rfl
    exact different rfl

/-- The order of the entries does not matter to a look-up. -/
theorem UniqueNames.findEntry_perm {first second : List (DirEntry ν)} (unique : UniqueNames first)
    (order : second.Perm first) (name : ν) : findEntry second name = findEntry first name := by
  apply Option.ext
  intro ino
  rw [(unique.of_perm order).findEntry_iff, unique.findEntry_iff, order.mem_iff]

end Rufux.Library
