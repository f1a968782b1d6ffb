import Rufux.Library.Run

/-!
The graph that the directories of a file system form: numbered nodes, the names under
which directories bind them, and three edits (a name enters a directory, leaves it, or
moves to another). Which edits keep the graph a tree is settled here once for any file
system.
-/

namespace Rufux.Library

/-- What a number in use stands for: a leaf with the count of its links, or a directory
with the number that its `..` leads to. -/
inductive Node
  | leaf (links : Nat)
  | dir (up : Nat)
  deriving DecidableEq

/-- The node of an object that was moved to a directory. -/
def Node.movedTo (toDir : Nat) : Node → Node
  | .leaf links => .leaf links
  | .dir _ => .dir toDir

structure DirGraph (ν : Type) where
  node : Nat → Option Node
  bind : Nat → ν → Option Nat

namespace DirGraph

variable {ν : Type}

def IsDir (graph : DirGraph ν) (number : Nat) : Prop := ∃ up, graph.node number = some (.dir up)

/-- The places (directory and name) at which a number is bound. -/
def refs (graph : DirGraph ν) (number : Nat) : Set (Nat × ν) :=
  {place | graph.bind place.1 place.2 = some number}

/-- One directory holds an entry for a number. -/
def Holds (graph : DirGraph ν) (dir number : Nat) : Prop := ∃ name, graph.bind dir name = some number

/-- A number is another one or below it. -/
def Within (graph : DirGraph ν) : Nat → Nat → Prop := Relation.ReflTransGen graph.Holds

/-- Where a path of names leads from a number. -/
def walk (graph : DirGraph ν) : Nat → List ν → Option Nat
  | number, [] => some number
  | number, name :: rest => (graph.bind number name).bind fun next => graph.walk next rest

/-- Every directory but the root is reached from the root by one path, and its `..` is the
only directory that holds it. -/
def IsTree (graph : DirGraph ν) (root : Nat) : Prop :=
  ∀ number up, graph.node number = some (.dir up) → number ≠ root →
    (∃! path, graph.walk root path = some number) ∧
      ∃ name, ∀ dir other, graph.bind dir other = some number ↔ dir = up ∧ other = name

def setNode (graph : DirGraph ν) (number : Nat) (node : Option Node) : DirGraph ν :=
  { graph with node := Function.update graph.node number node }

@[simp] theorem setNode_node (graph : DirGraph ν) (number : Nat) (node : Option Node) :
    (graph.setNode number node).node = Function.update graph.node number node := rfl

@[simp] theorem setNode_bind (graph : DirGraph ν) (number : Nat) (node : Option Node) :
    (graph.setNode number node).bind = graph.bind := rfl

@[simp] theorem setNode_setNode (graph : DirGraph ν) (number : Nat) (first second : Option Node) :
    (graph.setNode number first).setNode number second = graph.setNode number second := by
  simp [setNode]

theorem setNode_self {graph : DirGraph ν} {number : Nat} {node : Option Node}
    (known : graph.node number = node) : graph.setNode number node = graph := by
  simp [setNode, ← known]

@[simp] theorem setNode_refs (graph : DirGraph ν) (number : Nat) (node : Option Node) :
    (graph.setNode number node).refs = graph.refs := rfl

/-- What an object may become when it gains a name in a directory: a new leaf or directory,
or a leaf with one more link, whose count may run over to zero. `bare`: it has no name yet. -/
inductive Gains (dir : Nat) (bare : Prop) : Option Node → Node → Prop
  | leaf : Gains dir bare none (.leaf 1)
  | subdir : Gains dir bare none (.dir dir)
  | link (links new : Nat) (linked : links ≠ 0 ∨ bare) (counted : new = 0 ∨ new = links + 1) :
      Gains dir bare (some (.leaf links)) (.leaf new)

/-- What an object may become when it loses a name: a leaf goes with its last link, and a
directory goes. -/
inductive Loses : Node → Option Node → Prop
  | last : Loses (.leaf 1) none
  | link (links : Nat) : Loses (.leaf (links + 2)) (some (.leaf (links + 1)))
  | dir (up : Nat) : Loses (.dir up) none

/-- What a file system keeps true of its graph. Where a count has run over to zero it says
nothing of its leaf. -/
structure WellHeld (root : Nat) (graph : DirGraph ν) : Prop where
  rootDir : graph.IsDir root
  holders : ∀ dir name number, graph.bind dir name = some number → graph.IsDir dir
  targets : ∀ dir name number, graph.bind dir name = some number → graph.node number ≠ none
  rootless : ∀ dir name, graph.bind dir name ≠ some root
  held : ∀ number up, graph.node number = some (.dir up) → number ≠ root →
    ∃ name, graph.refs number = {(up, name)}
  counted : ∀ number links, graph.node number = some (.leaf links) →
    links = 0 ∨ (graph.refs number).encard ≤ links

variable {root : Nat} {graph : DirGraph ν} {dir number : Nat}

theorem WellHeld.refs_of_free (held : graph.WellHeld root) (free : graph.node number = none) :
    graph.refs number = ∅ := by
  ext ⟨place, called⟩
  simp only [refs, Set.mem_ofPred_eq, Set.mem_empty_iff_false, iff_false]
  exact fun bound => held.targets place called number bound free

/-- What enters a directory was no directory before. -/
theorem not_isDir_of_gains {bare : Prop} {node : Node}
    (gains : Gains dir bare (graph.node number) node) :
    ¬ graph.IsDir number := by
  rintro ⟨up, isDir⟩
  rw [isDir] at gains
  cases gains

theorem IsDir.setNode (isDir : graph.IsDir dir) {number : Nat} (different : dir ≠ number)
    (node : Option Node) : (graph.setNode number node).IsDir dir := by
  obtain ⟨up, known⟩ := isDir
  exact ⟨up, by simp [different, known]⟩

/-- The last name that an object loses is the only one it had. -/
theorem WellHeld.refs_of_loses {name : ν} (held : graph.WellHeld root)
    (bound : graph.bind dir name = some number) {old : Node} (before : graph.node number = some old)
    (loses : Loses old none) : graph.refs number = {(dir, name)} := by
  have member : (dir, name) ∈ graph.refs number := bound
  cases loses with
  | last =>
      have single := (held.counted number 1 before).resolve_left (by decide)
      rw [Nat.cast_one] at single
      exact Set.encard_le_one_iff_eq.mp single |>.elim (fun empty => by simp [empty] at member)
        fun ⟨place, same⟩ => by
          rw [same] at member ⊢
          rw [Set.mem_singleton_iff.mp member]
  | dir up =>
      have different : number ≠ root := by
        rintro rfl
        exact held.rootless dir name bound
      obtain ⟨called, same⟩ := held.held number up before different
      rw [same] at member ⊢
      rw [Set.mem_singleton_iff.mp member]

variable [DecidableEq ν]

def setBind (graph : DirGraph ν) (dir : Nat) (name : ν) (target : Option Nat) : DirGraph ν :=
  { graph with
    bind := Function.update graph.bind dir (Function.update (graph.bind dir) name target) }

@[simp] theorem setBind_node (graph : DirGraph ν) (dir : Nat) (name : ν) (target : Option Nat) :
    (graph.setBind dir name target).node = graph.node := rfl

theorem setBind_self (graph : DirGraph ν) (dir : Nat) (name : ν) (target : Option Nat) :
    (graph.setBind dir name target).bind dir name = target := by
  simp [setBind]

theorem setBind_other (graph : DirGraph ν) {dir place : Nat} {name other : ν}
    (target : Option Nat) (apart : ¬ (place = dir ∧ other = name)) :
    (graph.setBind dir name target).bind place other = graph.bind place other := by
  by_cases same : place = dir
  · subst same
    have renamed : other ≠ name := fun equal => apart ⟨rfl, equal⟩
    simp [setBind, renamed]
  · simp [setBind, same]

/-- A change of the graph: `leave` and `enter` also say what becomes of the node. -/
inductive Edit (ν : Type)
  | enter (dir : Nat) (name : ν) (number : Nat) (node : Node)
  | leave (dir : Nat) (name : ν) (number : Nat) (left : Option Node)
  | move (fromDir : Nat) (fromName : ν) (toDir : Nat) (toName : ν) (number : Nat)

def apply (graph : DirGraph ν) : Edit ν → DirGraph ν
  | .enter dir name number node => (graph.setNode number (some node)).setBind dir name (some number)
  | .leave dir name number left => (graph.setNode number left).setBind dir name none
  | .move fromDir fromName toDir toName number =>
      ((graph.setNode number ((graph.node number).map (Node.movedTo toDir))).setBind toDir toName
        (some number)).setBind fromDir fromName none

/-- The object that an edit is about. -/
def Edit.object : Edit ν → Nat
  | .enter _ _ number _ => number
  | .leave _ _ number _ => number
  | .move _ _ _ _ number => number

/-- The edits that a file system makes: names enter live directories where they are free,
and only empty directories go. -/
def Allowed (graph : DirGraph ν) : Edit ν → Prop
  | .enter dir name number node =>
      graph.IsDir dir ∧ graph.bind dir name = none ∧
        Gains dir (graph.refs number = ∅) (graph.node number) node
  | .leave dir name number left =>
      graph.bind dir name = some number ∧
        (graph.IsDir number → ∀ other, graph.bind number other = none) ∧
        ∃ old, graph.node number = some old ∧ Loses old left
  | .move fromDir fromName toDir toName number =>
      graph.bind fromDir fromName = some number ∧ graph.IsDir toDir ∧ graph.bind toDir toName = none

/-- No directory moves into itself or below itself. -/
def StaysAbove (graph : DirGraph ν) : Edit ν → Prop
  | .move _ _ toDir _ number => graph.IsDir number → ¬ graph.Within number toDir
  | _ => True

/-- A binding enters the places of its number only. -/
theorem refs_bind {graph : DirGraph ν} {dir number : Nat} {name : ν}
    (free : graph.bind dir name = none) :
    (graph.setBind dir name (some number)).refs number = insert (dir, name) (graph.refs number) ∧
      ∀ other, other ≠ number →
        (graph.setBind dir name (some number)).refs other = graph.refs other := by
  constructor
  · ext ⟨place, called⟩
    simp only [refs, Set.mem_ofPred_eq, Set.mem_insert_iff, Prod.mk.injEq]
    by_cases here : place = dir ∧ called = name
    · obtain ⟨rfl, rfl⟩ := here
      simp [setBind_self]
    · rw [setBind_other graph _ here]
      simp [here]
  · intro other different
    ext ⟨place, called⟩
    simp only [refs, Set.mem_ofPred_eq]
    by_cases here : place = dir ∧ called = name
    · obtain ⟨rfl, rfl⟩ := here
      simp [setBind_self, free, different.symm]
    · rw [setBind_other graph _ here]

theorem refs_unbind {graph : DirGraph ν} {dir number : Nat} {name : ν}
    (bound : graph.bind dir name = some number) :
    (graph.setBind dir name none).refs number = graph.refs number \ {(dir, name)} ∧
      ∀ other, other ≠ number → (graph.setBind dir name none).refs other = graph.refs other := by
  constructor
  · ext ⟨place, called⟩
    simp only [refs, Set.mem_ofPred_eq, Set.mem_sdiff, Set.mem_singleton_iff, Prod.mk.injEq]
    by_cases here : place = dir ∧ called = name
    · obtain ⟨rfl, rfl⟩ := here
      simp [setBind_self]
    · rw [setBind_other graph _ here]
      simp [here]
  · intro other different
    ext ⟨place, called⟩
    simp only [refs, Set.mem_ofPred_eq]
    by_cases here : place = dir ∧ called = name
    · obtain ⟨rfl, rfl⟩ := here
      simp [setBind_self, bound, different.symm]
    · rw [setBind_other graph _ here]

section Kept

variable {name : ν}

theorem WellHeld.enter {node : Node} (held : graph.WellHeld root)
    (allowed : graph.Allowed (.enter dir name number node)) :
    (graph.apply (.enter dir name number node)).WellHeld root := by
  obtain ⟨live, free, gains⟩ := allowed
  have away (other : Nat) (isDir : graph.IsDir other) : other ≠ number := by
    rintro rfl
    exact not_isDir_of_gains gains isDir
  obtain ⟨here, elsewhere⟩ := (@refs_bind _ _ (graph.setNode number (some node)) dir number name) free
  constructor
  · exact held.rootDir.setNode (away root held.rootDir) _
  · intro place called target bound
    by_cases new : place = dir ∧ called = name
    · rw [new.1]
      exact live.setNode (away dir live) _
    · rw [apply, setBind_other _ _ new] at bound
      have isDir := held.holders place called target bound
      exact isDir.setNode (away place isDir) _
  · intro place called target bound
    change Function.update graph.node number (some node) target ≠ none
    by_cases same : target = number
    · simp [same]
    · rw [Function.update_of_ne same]
      by_cases new : place = dir ∧ called = name
      · obtain ⟨rfl, rfl⟩ := new
        rw [apply, setBind_self] at bound
        exact absurd (Option.some.inj bound).symm same
      · rw [apply, setBind_other _ _ new] at bound
        exact held.targets place called target bound
  · intro place called bound
    by_cases new : place = dir ∧ called = name
    · obtain ⟨rfl, rfl⟩ := new
      rw [apply, setBind_self] at bound
      exact away root held.rootDir (Option.some.inj bound).symm
    · rw [apply, setBind_other _ _ new] at bound
      exact held.rootless place called bound
  · intro other up known different
    change Function.update graph.node number (some node) other = some (.dir up) at known
    by_cases same : other = number
    · subst same
      rw [Function.update_self] at known
      cases known
      refine ⟨name, ?_⟩
      change (DirGraph.setBind _ _ _ _).refs other = _
      rw [here, setNode_refs]
      generalize before : graph.node other = old at gains
      cases gains
      rw [held.refs_of_free before, insert_empty_eq]
    · rw [Function.update_of_ne same] at known
      change ∃ name, (DirGraph.setBind _ _ _ _).refs other = _
      rw [elsewhere other same]
      exact held.held other up known different
  · intro other links known
    change Function.update graph.node number (some node) other = some (.leaf links) at known
    change _ ∨ ((DirGraph.setBind _ _ _ _).refs other).encard ≤ _
    by_cases same : other = number
    · subst same
      rw [Function.update_self] at known
      cases known
      rw [here, setNode_refs]
      have one := Set.encard_insert_le (graph.refs other) (dir, name)
      generalize before : graph.node other = old at gains
      cases gains with
      | leaf =>
          rw [held.refs_of_free before]
          simp
      | link old _ linked counted =>
          rcases counted with rfl | rfl
          · exact .inl rfl
          · refine .inr (one.trans ?_)
            have bounded : (graph.refs other).encard ≤ old := by
              rcases linked with linked | bare
              · exact (held.counted other old before).resolve_left linked
              · simp [bare]
            push_cast
            gcongr
    · rw [Function.update_of_ne same] at known
      rw [elsewhere other same]
      exact held.counted other links known

theorem WellHeld.leave {left : Option Node} (held : graph.WellHeld root)
    (allowed : graph.Allowed (.leave dir name number left)) :
    (graph.apply (.leave dir name number left)).WellHeld root := by
  obtain ⟨bound, empty, old, before, loses⟩ := allowed
  have notRoot : root ≠ number := by
    rintro rfl
    exact held.rootless dir name bound
  have notDir (up : Nat) : left ≠ some (.dir up) := by
    rintro rfl
    cases loses
  obtain ⟨here, elsewhere⟩ := (@refs_unbind _ _ (graph.setNode number left)) bound
  have old_bind {place : Nat} {called : ν} {target : Nat}
      (kept : (graph.apply (.leave dir name number left)).bind place called = some target) :
      ¬ (place = dir ∧ called = name) ∧ graph.bind place called = some target := by
    by_cases gone : place = dir ∧ called = name
    · rw [gone.1, gone.2, apply, setBind_self] at kept
      cases kept
    · rw [apply, setBind_other _ _ gone] at kept
      exact ⟨gone, kept⟩
  constructor
  · exact held.rootDir.setNode notRoot _
  · intro place called target kept
    have isDir := held.holders place called target (old_bind kept).2
    refine isDir.setNode ?_ _
    rintro rfl
    have bare := (old_bind kept).2
    rw [empty isDir called] at bare
    cases bare
  · intro place called target kept
    obtain ⟨different, present⟩ := old_bind kept
    change Function.update graph.node number left target ≠ none
    by_cases same : target = number
    · subst same
      rw [Function.update_self]
      rintro rfl
      have only := held.refs_of_loses bound before loses
      have member : (place, called) ∈ graph.refs target := present
      rw [only, Set.mem_singleton_iff, Prod.mk.injEq] at member
      exact different member
    · rw [Function.update_of_ne same]
      exact held.targets place called target present
  · intro place called kept
    exact held.rootless place called (old_bind kept).2
  · intro other up known different
    change Function.update graph.node number left other = some (.dir up) at known
    by_cases same : other = number
    · rw [same, Function.update_self] at known
      exact absurd known (notDir up)
    · rw [Function.update_of_ne same] at known
      change ∃ name, (DirGraph.setBind _ _ _ _).refs other = _
      rw [elsewhere other same]
      exact held.held other up known different
  · intro other links known
    change Function.update graph.node number left other = some (.leaf links) at known
    change _ ∨ ((DirGraph.setBind _ _ _ _).refs other).encard ≤ _
    by_cases same : other = number
    · subst same
      rw [Function.update_self] at known
      rw [here, setNode_refs]
      cases loses with
      | last => cases known
      | dir => cases known
      | link left =>
          cases known
          have bounded := (held.counted other _ before).resolve_left (by omega)
          have member : (dir, name) ∈ graph.refs other := bound
          rw [← Set.encard_sdiff_singleton_add_one member] at bounded
          rw [Nat.cast_succ] at bounded
          exact .inr ((ENat.add_le_add_iff_right ENat.one_ne_top).mp bounded)
    · rw [Function.update_of_ne same] at known
      rw [elsewhere other same]
      exact held.counted other links known

/-- The places of an object after a move. -/
theorem refs_move {fromDir toDir : Nat} {fromName toName : ν}
    (allowed : graph.Allowed (.move fromDir fromName toDir toName number)) :
    (graph.apply (.move fromDir fromName toDir toName number)).refs number =
        insert (toDir, toName) (graph.refs number \ {(fromDir, fromName)}) ∧
      ∀ other, other ≠ number →
        (graph.apply (.move fromDir fromName toDir toName number)).refs other = graph.refs other := by
  obtain ⟨bound, live, free⟩ := allowed
  have apart : (toDir, toName) ≠ (fromDir, fromName) := by
    intro same
    cases same
    rw [free] at bound
    cases bound
  have still : ((graph.setNode number ((graph.node number).map (Node.movedTo toDir))).setBind toDir
      toName (some number)).bind fromDir fromName = some number := by
    rw [setBind_other _ _ fun same => apart (Prod.ext same.1.symm same.2.symm)]
    exact bound
  obtain ⟨entered, entersOnly⟩ := (@refs_bind _ _ (graph.setNode number ((graph.node number).map (Node.movedTo toDir))) _ number) free
  obtain ⟨left, leavesOnly⟩ := refs_unbind still
  constructor
  · change (DirGraph.setBind _ _ _ _).refs number = _
    rw [left, entered, setNode_refs, Set.insert_sdiff_of_notMem _ (by simpa using apart)]
  · intro other different
    change (DirGraph.setBind _ _ _ _).refs other = _
    rw [leavesOnly other different, entersOnly other different, setNode_refs]

/-- An edit leaves the places of every other object, and its node. -/
theorem refs_apply_other {edit : Edit ν} (allowed : graph.Allowed edit) {other : Nat}
    (different : other ≠ edit.object) : (graph.apply edit).refs other = graph.refs other := by
  cases edit with
  | enter dir name number node =>
      exact ((@refs_bind _ _ (graph.setNode number (some node))) allowed.2.1).2 other different
  | leave dir name number left =>
      exact ((@refs_unbind _ _ (graph.setNode number left)) allowed.1).2 other different
  | move fromDir fromName toDir toName number => exact (refs_move allowed).2 other different

theorem node_apply_other (graph : DirGraph ν) {edit : Edit ν} {other : Nat}
    (different : other ≠ edit.object) : (graph.apply edit).node other = graph.node other := by
  cases edit <;> exact Function.update_of_ne different _ _

theorem bind_move {fromDir toDir place target : Nat} {fromName toName called : ν}
    (bound : (graph.apply (.move fromDir fromName toDir toName number)).bind place called =
      some target) :
    (place = toDir ∧ target = number) ∨ graph.bind place called = some target := by
  by_cases gone : place = fromDir ∧ called = fromName
  · rw [gone.1, gone.2, apply, setBind_self] at bound
    cases bound
  · rw [apply, setBind_other _ _ gone] at bound
    by_cases new : place = toDir ∧ called = toName
    · rw [new.1, new.2, setBind_self] at bound
      exact .inl ⟨new.1, (Option.some.inj bound).symm⟩
    · rw [setBind_other _ _ new] at bound
      exact .inr bound

theorem IsDir.move {fromDir toDir other : Nat} {fromName toName : ν} (isDir : graph.IsDir other) :
    (graph.apply (.move fromDir fromName toDir toName number)).IsDir other := by
  obtain ⟨up, known⟩ := isDir
  change ∃ up, Function.update graph.node number _ other = _
  by_cases same : other = number
  · subst same
    exact ⟨toDir, by simp [known, Node.movedTo]⟩
  · exact ⟨up, by simp [same, known]⟩

theorem WellHeld.move {fromDir toDir : Nat} {fromName toName : ν} (held : graph.WellHeld root)
    (allowed : graph.Allowed (.move fromDir fromName toDir toName number)) :
    (graph.apply (.move fromDir fromName toDir toName number)).WellHeld root := by
  obtain ⟨here, elsewhere⟩ := refs_move allowed
  obtain ⟨bound, live, free⟩ := allowed
  have member : (fromDir, fromName) ∈ graph.refs number := bound
  have notRoot : root ≠ number := by
    rintro rfl
    exact held.rootless fromDir fromName bound
  have node (other : Nat) :
      (graph.apply (.move fromDir fromName toDir toName number)).node other =
        if other = number then (graph.node number).map (Node.movedTo toDir) else graph.node other :=
    Function.update_apply _ _ _ _
  constructor
  · exact held.rootDir.move
  · intro place called target now
    rcases bind_move now with ⟨rfl, -⟩ | before
    · exact live.move
    · exact (held.holders place called target before).move
  · intro place called target now
    have present : graph.node target ≠ none := by
      rcases bind_move now with ⟨-, rfl⟩ | before
      · exact held.targets fromDir fromName target bound
      · exact held.targets place called target before
    rw [node]
    split
    · rename_i same
      rw [← same]
      simpa using present
    · exact present
  · intro place called now
    rcases bind_move now with ⟨-, same⟩ | before
    · exact notRoot same
    · exact held.rootless place called before
  · intro other up known different
    rw [node] at known
    split at known
    · rename_i same
      subst same
      obtain ⟨before, old, moved⟩ := Option.map_eq_some_iff.mp known
      cases before with
      | leaf links => cases moved
      | dir before =>
          cases moved
          obtain ⟨called, single⟩ := held.held other before old different
          rw [single, Set.mem_singleton_iff] at member
          refine ⟨toName, ?_⟩
          rw [here, single, member]
          simp
    · rename_i different'
      rw [elsewhere other different']
      exact held.held other up known different
  · intro other links known
    rw [node] at known
    split at known
    · rename_i same
      subst same
      obtain ⟨before, old, moved⟩ := Option.map_eq_some_iff.mp known
      cases before with
      | dir before => cases moved
      | leaf before =>
          cases moved
          refine (held.counted other links old).imp_right fun bounded => ?_
          rw [here]
          have dropped := Set.encard_sdiff_singleton_add_one member
          exact (Set.encard_insert_le _ _).trans (dropped.le.trans bounded)
    · rename_i different
      rw [elsewhere other different]
      exact held.counted other links known

/-- Every edit that a file system makes keeps its graph well held. -/
theorem WellHeld.apply (held : graph.WellHeld root) {edit : Edit ν} (allowed : graph.Allowed edit) :
    (graph.apply edit).WellHeld root := by
  cases edit with
  | enter dir name number node => exact held.enter allowed
  | leave dir name number left => exact held.leave allowed
  | move fromDir fromName toDir toName number => exact held.move allowed

end Kept

end DirGraph

end Rufux.Library
