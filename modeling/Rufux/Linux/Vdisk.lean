import Rufux.Linux.MjsonGrammar
import Rufux.Linux.UdisksMount

/-!
The check of the files that a virtual disk refers to, over the tree that is read of what
`qemu-img info` prints. The reader puts no NUL into a string, so that a string of the tree is a
C string.
-/

namespace Rufux.Linux

open Library Json

/-- The keys under which a file is named that the image is laid over or keeps its data in. -/
def referenceKeys : List (List UInt8) :=
  [ascii "backing-filename", ascii "full-backing-filename", ascii "data-file", ascii "parent-filename"]

/-- Where the last slash of a path is. -/
def strrchr (path : List UInt8) : Option Nat :=
  if (47 : UInt8) ∈ path then some (path.length - 1 - path.reverse.idxOf 47) else none

/-- The path names something in the directory, as it is written. -/
def sameDir (dir path : List UInt8) : Bool :=
  match strrchr path with
  | none => false
  | some length => dir.length = length && path.take length = dir.take length

/-- The name under one key that the check refuses. `regular` says what `lstat` finds. -/
def badReference (regular : List UInt8 → Bool) (self dir key : List UInt8) (value : Json) :
    Option (List UInt8) :=
  match value with
  | .str name =>
    if key ∈ referenceKeys then if name = [] then none else some name
    else if key = ascii "filename" then
      if name = self then none
      else if !sameDir dir name || !regular name then some name
      else none
    else none
  | _ => none

mutual

/-- The first name in the tree that the check refuses; none where it accepts the tree. -/
def refsOk (regular : List UInt8 → Bool) (self dir : List UInt8) : Json → Option (List UInt8)
  | .node named members => membersOk regular self dir named members
  | _ => none

def membersOk (regular : List UInt8 → Bool) (self dir : List UInt8) (named : Bool) :
    List (List UInt8 × Json) → Option (List UInt8)
  | [] => none
  | (key, value) :: rest =>
    match if named then badReference regular self dir key value else none with
    | some bad => some bad
    | none =>
      match refsOk regular self dir value with
      | some bad => some bad
      | none => membersOk regular self dir named rest

end

/-- What `realpath` returns. -/
structure RealPath where
  bytes : List UInt8
  absolute : ∃ rest, bytes = 47 :: rest

/-- The path up to its last slash. -/
def RealPath.dir (real : RealPath) : List UInt8 :=
  match strrchr real.bytes with
  | some length => real.bytes.take length
  | none => real.bytes

/-! ### Paths -/

section Paths

variable {path dir : List UInt8}

/-- The path is a name directly in the directory. -/
def LiesIn (dir path : List UInt8) : Prop :=
  ∃ name, (47 : UInt8) ∉ name ∧ path = dir ++ 47 :: name

theorem strrchr_last {front name : List UInt8} (single : (47 : UInt8) ∉ name) :
    strrchr (front ++ 47 :: name) = some front.length := by
  have place : (front ++ 47 :: name).reverse.idxOf 47 = name.length := by
    have shape : (front ++ 47 :: name).reverse = name.reverse ++ 47 :: front.reverse := by simp
    have outside : (47 : UInt8) ∉ name.reverse := by simpa using single
    rw [shape, List.idxOf_append_of_notMem outside, List.idxOf_cons_self, List.length_reverse,
      Nat.add_zero]
  unfold strrchr
  rw [if_pos (by simp), place, List.length_append, List.length_cons]
  congr 1
  omega

/-- A path with a slash is what stands before its last one, and a name. -/
theorem last_slash (slash : (47 : UInt8) ∈ path) :
    ∃ front name, (47 : UInt8) ∉ name ∧ path = front ++ 47 :: name := by
  induction path using List.reverseRecOn with
  | nil => cases slash
  | append_singleton front byte ih =>
    by_cases here : byte = 47
    · exact ⟨front, [], by simp, by rw [here]⟩
    · have before : (47 : UInt8) ∈ front := by
        rcases List.mem_append.mp slash with before | last
        · exact before
        · exact absurd (List.mem_singleton.mp last).symm here
      obtain ⟨first, name, single, rfl⟩ := ih before
      refine ⟨first, name ++ [byte], ?_, by simp⟩
      intro inside
      rcases List.mem_append.mp inside with inside | last
      · exact single inside
      · exact here (List.mem_singleton.mp last).symm

theorem sameDir_iff : sameDir dir path = true ↔ LiesIn dir path := by
  unfold sameDir
  constructor
  · intro same
    by_cases slash : (47 : UInt8) ∈ path
    · obtain ⟨front, name, single, rfl⟩ := last_slash slash
      rw [strrchr_last single] at same
      simp only [Bool.and_eq_true, decide_eq_true_eq] at same
      obtain ⟨length, taken⟩ := same
      rw [List.take_left, ← length, List.take_length] at taken
      exact ⟨name, single, by rw [taken]⟩
    · have none_there : strrchr path = none := if_neg slash
      rw [none_there] at same
      cases same
  · rintro ⟨name, single, rfl⟩
    rw [strrchr_last single]
    simp

/-- The image itself lies in its own directory. -/
theorem RealPath.liesIn (real : RealPath) : LiesIn real.dir real.bytes := by
  obtain ⟨rest, absolute⟩ := real.absolute
  have slash : (47 : UInt8) ∈ real.bytes := by
    rw [absolute]
    exact List.mem_cons_self
  obtain ⟨front, name, single, split⟩ := last_slash slash
  refine ⟨name, single, ?_⟩
  unfold RealPath.dir
  rw [split, strrchr_last single]
  dsimp only
  rw [List.take_left]

end Paths

/-! ### The tree -/

/-- The value stands under the key in an object of the tree, at any depth. -/
def Under (key : List UInt8) (value tree : Json) : Prop :=
  ∃ members, Within (.node true members) tree ∧ (key, value) ∈ members

section Tree

variable {regular : List UInt8 → Bool} {self dir key : List UInt8} {value : Json}

theorem under_node {named : Bool} {members : List (List UInt8 × Json)} :
    Under key value (.node named members) ↔ named = true ∧ (key, value) ∈ members ∨
      ∃ member ∈ members, Under key value member.2 := by
  constructor
  · rintro ⟨inner, within, inside⟩
    cases within with
    | self => exact .inl ⟨rfl, inside⟩
    | member member within => exact .inr ⟨_, member, inner, within, inside⟩
  · rintro (⟨rfl, inside⟩ | ⟨member, held, inner, within, inside⟩)
    · exact ⟨members, .self, inside⟩
    · exact ⟨inner, .member held within, inside⟩

theorem under_leaf {leaf : Json} (scalar : ∀ named members, leaf ≠ .node named members) :
    ¬Under key value leaf := by
  rintro ⟨members, within, -⟩
  cases within with
  | self => exact scalar _ _ rfl
  | member => exact scalar _ _ rfl

mutual

/-- The check accepts a tree where it refuses no value in it. -/
theorem refsOk_none : ∀ tree : Json, refsOk regular self dir tree = none ↔
    ∀ key value, Under key value tree → badReference regular self dir key value = none
  | .node named members => by
    rw [refsOk, membersOk_none named members]
    constructor
    · rintro ⟨here, below⟩ key value under
      rcases under_node.mp under with ⟨rfl, inside⟩ | ⟨member, inside, under⟩
      · exact here rfl key value inside
      · exact below member inside key value under
    · intro every
      constructor
      · rintro rfl key value inside
        exact every key value (under_node.mpr (.inl ⟨rfl, inside⟩))
      · intro member inside key value under
        exact every key value (under_node.mpr (.inr ⟨member, inside, under⟩))
  | .null => by
    simp only [refsOk, true_iff]
    exact fun key value under => absurd under (under_leaf (by simp))
  | .bool _ => by
    simp only [refsOk, true_iff]
    exact fun key value under => absurd under (under_leaf (by simp))
  | .num _ => by
    simp only [refsOk, true_iff]
    exact fun key value under => absurd under (under_leaf (by simp))
  | .str _ => by
    simp only [refsOk, true_iff]
    exact fun key value under => absurd under (under_leaf (by simp))

theorem membersOk_none (named : Bool) : ∀ members : List (List UInt8 × Json),
    membersOk regular self dir named members = none ↔
      (named = true → ∀ key value, (key, value) ∈ members →
        badReference regular self dir key value = none) ∧
      ∀ member ∈ members, ∀ key value, Under key value member.2 →
        badReference regular self dir key value = none
  | [] => by simp [membersOk]
  | (key, value) :: rest => by
    have below := refsOk_none value
    have later := membersOk_none named rest
    rw [membersOk]
    split
    · rename_i bad refused
      simp only [reduceCtorEq, false_iff]
      rintro ⟨here, -⟩
      split at refused
      · rename_i isNamed
        rw [here isNamed key value List.mem_cons_self] at refused
        cases refused
      · cases refused
    · rename_i accepted
      split
      · rename_i bad refused
        simp only [reduceCtorEq, false_iff]
        rintro ⟨-, inside⟩
        rw [below.mpr fun key value under => inside _ List.mem_cons_self key value under] at refused
        cases refused
      · rename_i inner
        rw [later]
        constructor
        · rintro ⟨here, inside⟩
          refine ⟨fun isNamed other text member => ?_, fun member held => ?_⟩
          · rcases List.mem_cons.mp member with same | member
            · obtain ⟨rfl, rfl⟩ := Prod.mk.inj same
              rwa [if_pos isNamed] at accepted
            · exact here isNamed other text member
          · rcases List.mem_cons.mp held with rfl | held
            · exact below.mp inner
            · exact inside member held
        · rintro ⟨here, inside⟩
          exact ⟨fun isNamed other text member => here isNamed other text (List.mem_cons_of_mem _ member),
            fun member held => inside member (List.mem_cons_of_mem _ held)⟩

end

/-- What the check asks of one key. -/
theorem badReference_none : badReference regular self dir key value = none ↔
    (key ∈ referenceKeys → ∀ name, value = .str name → name = []) ∧
      (key = ascii "filename" → ∀ name, value = .str name →
        name = self ∨ LiesIn dir name ∧ regular name = true) := by
  have apart : ascii "filename" ∉ referenceKeys := by decide
  unfold badReference
  split
  · rename_i name
    split
    · rename_i reference
      have other : key ≠ ascii "filename" := by
        rintro rfl
        exact apart reference
      simp [reference, other]
    · rename_i reference
      split
      · rename_i filename
        by_cases itself : name = self
        · simp [reference, itself]
        · rw [if_neg itself]
          have inside := @sameDir_iff name dir
          cases lies : sameDir dir name <;> cases plain : regular name <;>
            simp_all
      · rename_i filename
        simp [reference, filename]
  · rename_i scalar
    constructor
    · exact fun _ => ⟨fun _ name same => absurd same (scalar name),
        fun _ name same => absurd same (scalar name)⟩
    · exact fun _ => rfl

end Tree

/-- The check accepts a tree exactly when no file is named under the keys of a backing file, a data
file or a parent, and every file name is the image or a regular file directly in its directory; so
every file name of a tree that is accepted for an image lies in the image's directory. -/
theorem refs_iff (regular : List UInt8 → Bool) (real : RealPath) (tree : Json) :
    (refsOk regular real.bytes real.dir tree = none ↔
      (∀ key ∈ referenceKeys, ∀ name, Under key (.str name) tree → name = []) ∧
      ∀ name, Under (ascii "filename") (.str name) tree →
        name = real.bytes ∨ LiesIn real.dir name ∧ regular name = true) ∧
    (refsOk regular real.bytes real.dir tree = none →
      ∀ name, Under (ascii "filename") (.str name) tree → LiesIn real.dir name) := by
  have law : refsOk regular real.bytes real.dir tree = none ↔
      (∀ key ∈ referenceKeys, ∀ name, Under key (.str name) tree → name = []) ∧
      ∀ name, Under (ascii "filename") (.str name) tree →
        name = real.bytes ∨ LiesIn real.dir name ∧ regular name = true := by
    rw [refsOk_none]
    constructor
    · intro every
      refine ⟨fun key listed name under => ?_, fun name under => ?_⟩
      · exact (badReference_none.mp (every key _ under)).1 listed name rfl
      · exact (badReference_none.mp (every _ _ under)).2 rfl name rfl
    · rintro ⟨references, names⟩ key value under
      refine badReference_none.mpr ⟨?_, ?_⟩
      · rintro listed name rfl
        exact references key listed name under
      · rintro rfl name rfl
        exact names name under
  refine ⟨law, fun accepted name under => ?_⟩
  rcases (law.mp accepted).2 name under with rfl | ⟨lies, -⟩
  · exact real.liesIn
  · exact lies

end Rufux.Linux
