import Rufux.Library.DirGraph

/-!
When the edits of a directory graph keep it a tree: every directory is reached from the
root by one path, as long as none moves below itself.
-/

namespace Rufux.Library.DirGraph

variable {ν : Type} {graph : DirGraph ν} {root : Nat}

/-- Following `..` from a directory leads to the root. -/
inductive Climbs (graph : DirGraph ν) (root : Nat) : Nat → Prop
  | root : Climbs graph root root
  | up (number up : Nat) (known : graph.node number = some (.dir up)) (above : Climbs graph root up) :
      Climbs graph root number

structure Tree (root : Nat) (graph : DirGraph ν) : Prop extends graph.WellHeld root where
  grounded : ∀ number, graph.IsDir number → graph.Climbs root number

theorem walk_append (graph : DirGraph ν) (start : Nat) (first second : List ν) :
    graph.walk start (first ++ second) =
      (graph.walk start first).bind fun next => graph.walk next second := by
  induction first generalizing start with
  | nil => rfl
  | cons name rest ih =>
      simp only [List.cons_append, walk]
      cases graph.bind start name with
      | none => rfl
      | some next => exact ih next

theorem walk_concat (graph : DirGraph ν) (start : Nat) (path : List ν) (name : ν) :
    graph.walk start (path ++ [name]) = (graph.walk start path).bind (graph.bind · name) := by
  rw [walk_append]
  cases graph.walk start path with
  | none => rfl
  | some next =>
      simp only [Option.bind_some, walk]
      cases graph.bind next name <;> rfl

theorem Climbs.walks (held : graph.WellHeld root) {number : Nat} (climbs : graph.Climbs root number) :
    ∃ path, graph.walk root path = some number := by
  induction climbs with
  | root => exact ⟨[], rfl⟩
  | up number up known _ ih =>
      by_cases same : number = root
      · exact ⟨[], by rw [same]; rfl⟩
      · obtain ⟨path, reached⟩ := ih
        obtain ⟨name, single⟩ := held.held number up known same
        have bound : (up, name) ∈ graph.refs number := by simp [single]
        refine ⟨path ++ [name], ?_⟩
        rw [walk_concat, reached]
        exact bound

/-- What a directory is bound at is its one place. -/
theorem WellHeld.place_eq (held : graph.WellHeld root) {number up : Nat}
    (known : graph.node number = some (.dir up)) {first second : Nat × ν}
    (left : graph.bind first.1 first.2 = some number)
    (right : graph.bind second.1 second.2 = some number) : first = second ∧ first.1 = up := by
  have different : number ≠ root := by
    rintro rfl
    exact held.rootless _ _ left
  obtain ⟨name, single⟩ := held.held number up known different
  have leftMem : first ∈ graph.refs number := left
  have rightMem : second ∈ graph.refs number := right
  rw [single, Set.mem_singleton_iff] at leftMem rightMem
  exact ⟨leftMem.trans rightMem.symm, congrArg Prod.fst leftMem⟩

/-- Two paths from the root to one directory are the same. -/
theorem WellHeld.walk_unique (held : graph.WellHeld root) (first second : List ν) {number : Nat}
    (isDir : graph.IsDir number) (left : graph.walk root first = some number)
    (right : graph.walk root second = some number) : first = second := by
  induction first using List.reverseRecOn generalizing second number with
  | nil =>
      cases second using List.reverseRecOn with
      | nil => rfl
      | append_singleton path name =>
          rw [walk_concat, Option.bind_eq_some_iff] at right
          obtain ⟨last, -, bound⟩ := right
          cases left
          exact absurd bound (held.rootless last name)
  | append_singleton path name ih =>
      rw [walk_concat, Option.bind_eq_some_iff] at left
      obtain ⟨last, reached, bound⟩ := left
      cases second using List.reverseRecOn with
      | nil =>
          cases right
          exact absurd bound (held.rootless last name)
      | append_singleton other called =>
          rw [walk_concat, Option.bind_eq_some_iff] at right
          obtain ⟨otherLast, otherReached, otherBound⟩ := right
          obtain ⟨up, known⟩ := isDir
          obtain ⟨same, -⟩ := @WellHeld.place_eq _ _ _ held _ _ known (last, name)
            (otherLast, called) bound otherBound
          cases same
          rw [ih other (held.holders last name number bound) reached otherReached]

theorem Tree.isTree (tree : graph.Tree root) : graph.IsTree root := by
  intro number up known different
  obtain ⟨path, reached⟩ := (tree.grounded number ⟨up, known⟩).walks tree.toWellHeld
  refine ⟨⟨path, reached, fun other also => ?_⟩, ?_⟩
  · exact tree.walk_unique other path ⟨up, known⟩ also reached
  · obtain ⟨name, single⟩ := tree.held number up known different
    refine ⟨name, fun dir other => ?_⟩
    change (dir, other) ∈ graph.refs number ↔ _
    rw [single, Set.mem_singleton_iff, Prod.mk.injEq]

theorem Within.walks {number below : Nat} (within : graph.Within number below) :
    ∃ path, graph.walk number path = some below := by
  induction within with
  | refl => exact ⟨[], rfl⟩
  | tail _ holds ih =>
      obtain ⟨path, reached⟩ := ih
      obtain ⟨name, bound⟩ := holds
      refine ⟨path ++ [name], ?_⟩
      rw [walk_concat, reached]
      exact bound

/-- No directory of a tree holds an entry for one that it is within. -/
theorem Tree.not_holds_above (tree : graph.Tree root) {number dir : Nat}
    (isDir : graph.IsDir number) (within : graph.Within number dir) : ¬ graph.Holds dir number := by
  rintro ⟨name, bound⟩
  obtain ⟨path, reached⟩ := (tree.grounded number isDir).walks tree.toWellHeld
  obtain ⟨around, below⟩ := within.walks
  have again : graph.walk root (path ++ (around ++ [name])) = some number := by
    rw [walk_append, reached, Option.bind_some, walk_concat, below]
    exact bound
  have same := tree.walk_unique _ _ isDir reached again
  have lengths := congrArg List.length same
  simp at lengths

theorem Climbs.mono {after : DirGraph ν}
    (kept : ∀ number up, graph.node number = some (.dir up) → after.node number = some (.dir up))
    {number : Nat} (climbs : graph.Climbs root number) : after.Climbs root number := by
  induction climbs with
  | root => exact .root
  | up number up known _ ih => exact .up number up (kept number up known) ih

/-- What is not below a directory climbs to the root without passing it. -/
theorem Climbs.avoiding (held : graph.WellHeld root) {after : DirGraph ν} {top number : Nat}
    (kept : ∀ other, other ≠ top → after.node other = graph.node other)
    (climbs : graph.Climbs root number) (away : ¬ graph.Within top number) :
    after.Climbs root number := by
  induction climbs with
  | root => exact .root
  | up number up known _ ih =>
      have different : number ≠ top := by
        rintro rfl
        exact away .refl
      by_cases same : number = root
      · rw [same]
        exact .root
      · obtain ⟨name, single⟩ := held.held number up known same
        have bound : (up, name) ∈ graph.refs number := by simp [single]
        have above := ih fun within => away (within.tail ⟨name, bound⟩)
        exact .up number up ((kept number different).trans known) above

/-- Where fewer names are bound, less is within a directory. -/
theorem Within.of_fewer {fewer : DirGraph ν}
    (bound : ∀ dir name number, fewer.bind dir name = some number →
      graph.bind dir name = some number)
    {number below : Nat} (within : fewer.Within number below) : graph.Within number below := by
  induction within with
  | refl => exact .refl
  | tail _ holds ih =>
      obtain ⟨name, present⟩ := holds
      exact ih.tail ⟨name, bound _ name _ present⟩

variable [DecidableEq ν]

theorem Tree.enter {dir number : Nat} {name : ν} {node : Node} (tree : graph.Tree root)
    (allowed : graph.Allowed (.enter dir name number node)) :
    (graph.apply (.enter dir name number node)).Tree root := by
  refine ⟨tree.toWellHeld.enter allowed, ?_⟩
  obtain ⟨live, -, gains⟩ := allowed
  have kept (other up : Nat) (known : graph.node other = some (.dir up)) :
      (graph.apply (.enter dir name number node)).node other = some (.dir up) := by
    change Function.update graph.node number (some node) other = _
    rw [Function.update_of_ne ?_, known]
    rintro rfl
    exact not_isDir_of_gains gains ⟨up, known⟩
  rintro other ⟨up, known⟩
  change Function.update graph.node number (some node) other = _ at known
  by_cases same : other = number
  · subst same
    have entered := known
    rw [Function.update_self] at known
    cases known
    generalize graph.node other = before at gains
    cases gains
    exact .up other dir entered ((tree.grounded dir live).mono kept)
  · rw [Function.update_of_ne same] at known
    exact (tree.grounded other ⟨up, known⟩).mono kept

theorem Tree.leave {dir number : Nat} {name : ν} {left : Option Node} (tree : graph.Tree root)
    (allowed : graph.Allowed (.leave dir name number left)) :
    (graph.apply (.leave dir name number left)).Tree root := by
  refine ⟨tree.toWellHeld.leave allowed, ?_⟩
  obtain ⟨bound, empty, old, before, loses⟩ := allowed
  have bare (called : ν) : graph.bind number called = none := by
    by_contra full
    obtain ⟨target, present⟩ := Option.ne_none_iff_exists'.mp full
    exact full (empty (tree.holders number called target present) called)
  -- what holds nothing is above nothing but itself
  have alone (other : Nat) (within : graph.Within number other) : other = number := by
    induction within with
    | refl => rfl
    | tail _ holds ih =>
        obtain ⟨called, present⟩ := holds
        rw [ih, bare] at present
        cases present
  rintro other ⟨up, known⟩
  change Function.update graph.node number left other = _ at known
  have different : other ≠ number := by
    rintro rfl
    rw [Function.update_self] at known
    subst known
    cases loses
  rw [Function.update_of_ne different] at known
  refine @Climbs.avoiding _ _ _ tree.toWellHeld _ number _ ?_ (tree.grounded other ⟨up, known⟩) ?_
  · intro place apart
    exact Function.update_of_ne apart _ _
  · exact fun within => different (alone other within)

theorem Tree.move {fromDir toDir number : Nat} {fromName toName : ν} (tree : graph.Tree root)
    (allowed : graph.Allowed (.move fromDir fromName toDir toName number))
    (above : graph.StaysAbove (.move fromDir fromName toDir toName number)) :
    (graph.apply (.move fromDir fromName toDir toName number)).Tree root := by
  refine ⟨tree.toWellHeld.move allowed, ?_⟩
  obtain ⟨bound, live, free⟩ := allowed
  have node (other : Nat) :
      (graph.apply (.move fromDir fromName toDir toName number)).node other =
        if other = number then (graph.node number).map (Node.movedTo toDir) else graph.node other :=
    Function.update_apply _ _ _ _
  have elsewhere (other : Nat) (different : other ≠ number) :
      (graph.apply (.move fromDir fromName toDir toName number)).node other = graph.node other := by
    rw [node, if_neg different]
  -- a leaf is on no way to the root; a directory now goes on from its new parent
  have climbs (other : Nat) (climbs : graph.Climbs root other) :
      (graph.apply (.move fromDir fromName toDir toName number)).Climbs root other := by
    by_cases isDir : graph.IsDir number
    · have arrived := (tree.grounded toDir live).avoiding tree.toWellHeld elsewhere (above isDir)
      obtain ⟨old, was⟩ := isDir
      induction climbs with
      | root => exact .root
      | up other up known _ ih =>
          by_cases same : other = number
          · subst same
            exact .up other toDir (by rw [node, if_pos rfl, was]; rfl) arrived
          · exact .up other up ((elsewhere other same).trans known) ih
    · refine climbs.mono fun other up known => ?_
      rw [elsewhere other, known]
      rintro rfl
      exact isDir ⟨up, known⟩
  rintro other ⟨up, known⟩
  refine climbs other (tree.grounded other ?_)
  by_cases same : other = number
  · subst same
    rw [node, if_pos rfl] at known
    obtain ⟨before, old, moved⟩ := Option.map_eq_some_iff.mp known
    cases before with
    | leaf links => cases moved
    | dir before => exact ⟨before, old⟩
  · exact ⟨up, by rw [← elsewhere other same, known]⟩

theorem Tree.apply (tree : graph.Tree root) {edit : Edit ν} (allowed : graph.Allowed edit)
    (above : graph.StaysAbove edit) : (graph.apply edit).Tree root := by
  cases edit with
  | enter dir name number node => exact tree.enter allowed
  | leave dir name number left => exact tree.leave allowed
  | move fromDir fromName toDir toName number => exact tree.move allowed above

/-- An edit that a file system may make; a proper one moves no directory below itself. -/
def Fits (proper : Prop) (graph : DirGraph ν) (edit : Edit ν) : Prop :=
  graph.Allowed edit ∧ (proper → graph.StaysAbove edit)

/-- One graph comes from another by a run of edits. -/
def Edits (proper : Prop) (before after : DirGraph ν) : Prop :=
  ∃ edits, Steps DirGraph.apply (Fits proper) before edits ∧
    edits.foldl DirGraph.apply before = after

section Edits

variable {proper : Prop} {before middle after : DirGraph ν}

theorem Edits.refl (proper : Prop) (graph : DirGraph ν) : Edits proper graph graph :=
  ⟨[], trivial, rfl⟩

theorem Edits.single {edit : Edit ν} (fits : Fits proper before edit) :
    Edits proper before (before.apply edit) :=
  ⟨[edit], ⟨fits, trivial⟩, rfl⟩

theorem Edits.trans (first : Edits proper before middle) (second : Edits proper middle after) :
    Edits proper before after := by
  obtain ⟨left, leftMet, rfl⟩ := first
  obtain ⟨right, rightMet, rfl⟩ := second
  exact ⟨left ++ right, steps_append.mpr ⟨leftMet, rightMet⟩, List.foldl_append⟩

theorem WellHeld.edits (held : before.WellHeld root) (edits : Edits proper before after) :
    after.WellHeld root := by
  obtain ⟨list, met, rfl⟩ := edits
  exact met.invariant (fun _ _ held fits => held.apply fits.1) held

/-- A tree stays one through any run of proper edits. -/
theorem Tree.edits (tree : before.Tree root) (edits : Edits True before after) :
    after.Tree root := by
  obtain ⟨list, met, rfl⟩ := edits
  exact met.invariant (fun _ _ tree fits => tree.apply fits.1 (fits.2 trivial)) tree

end Edits

end Rufux.Library.DirGraph
