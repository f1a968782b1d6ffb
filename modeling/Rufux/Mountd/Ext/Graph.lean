import Rufux.Library.DirTree
import Rufux.Mountd.Ext.Cases

/-!
The directory graph of an ext volume, and the edits of it that the operations of
`mountd_nfs.c` come to.
-/

namespace Rufux.Mountd

open Rufux.Library ExtVolume

def ExtInode.node (inode : ExtInode) (up : Nat) : Node :=
  if inode.isDir then .dir up else .leaf inode.linksCount

def ExtVolume.graph (volume : ExtVolume) : DirGraph Name where
  node ino :=
    if volume.inodeMap ino then some ((volume.inode ino).node (volume.dotdot ino)) else none
  bind dir name := findEntry (volume.entries dir) name

namespace ExtVolume

theorem graph_congr {before after : ExtVolume}
    (node : ∀ ino, after.graph.node ino = before.graph.node ino)
    (entries : after.entries = before.entries) : after.graph = before.graph := by
  have nodes : after.graph.node = before.graph.node := funext node
  have binds : after.graph.bind = before.graph.bind := by
    funext dir name
    simp only [graph, entries]
  generalize after.graph = left at *
  generalize before.graph = right at *
  cases left
  cases right
  cases nodes
  cases binds
  rfl

theorem EditsInode.isDir_eq {ino : Nat} {before after : ExtVolume}
    (edit : EditsInode ino before after) (other : Nat) :
    (after.inode other).isDir = (before.inode other).isDir := by
  simp only [ExtInode.isDir, edit.format_eq other]

theorem EditsInode.graph {ino : Nat} {before after : ExtVolume}
    (edit : EditsInode ino before after) : after.graph = before.graph := by
  refine graph_congr (fun other => ?_) edit.entries
  simp only [ExtVolume.graph, edit.inodeMap, edit.dotdot, ExtInode.node, edit.isDir_eq,
    edit.linksCount_eq]

variable (volume : ExtVolume)

theorem graph_setInode (ino : Nat) (inode : ExtInode) :
    (volume.setInode ino inode).graph = volume.graph.setNode ino
      (if volume.inodeMap ino then some (inode.node (volume.dotdot ino)) else none) := by
  simp only [graph, DirGraph.setNode, setInode_fields, DirGraph.mk.injEq, and_true]
  funext other
  by_cases same : other = ino
  · subst same
    simp
  · simp [same]

theorem graph_markInode (ino : Nat) (used : Bool) :
    (volume.markInode ino used).graph = volume.graph.setNode ino
      (if used then some ((volume.inode ino).node (volume.dotdot ino)) else none) := by
  simp only [graph, DirGraph.setNode, markInode_fields, DirGraph.mk.injEq, and_true]
  funext other
  by_cases same : other = ino
  · subst same
    simp
  · simp [same]

theorem graph_setDotdot (ino parent : Nat) :
    (volume.setDotdot ino parent).graph = volume.graph.setNode ino
      (if volume.inodeMap ino then some ((volume.inode ino).node parent) else none) := by
  simp only [graph, DirGraph.setNode, setDotdot_fields, DirGraph.mk.injEq, and_true]
  funext other
  by_cases same : other = ino
  · subst same
    simp
  · simp [same]

/-- The counts of a directory's inode are not part of the graph. -/
theorem graph_setInode_dir {ino : Nat} {inode : ExtInode} (isDir : (volume.inode ino).isDir = true)
    (stays : inode.isDir = true) : (volume.setInode ino inode).graph = volume.graph := by
  refine graph_congr (fun other => ?_) rfl
  rw [graph_setInode, DirGraph.setNode_node]
  by_cases same : other = ino
  · subst same
    simp [graph, ExtInode.node, isDir, stays]
  · simp [same]

theorem graph_addEntry {dir : Nat} {name : Name} (calls : ExtCalls) (ino : Nat)
    (unique : UniqueNames (volume.entries dir)) (free : volume.graph.bind dir name = none) :
    (volume.addEntry calls dir name ino).graph = volume.graph.setBind dir name (some ino) := by
  simp only [graph, DirGraph.setBind, addEntry_fields, DirGraph.mk.injEq, true_and]
  funext place called
  by_cases same : place = dir
  · subst same
    simp only [Function.update_self]
    by_cases new : called = name
    · subst new
      simp only [Function.update_self]
      exact findEntry_insertEntry_self _ free ino
    · rw [Function.update_of_ne new]
      exact findEntry_insertEntry_other _ unique free new
  · simp [same]

theorem graph_eraseEntry {dir ino : Nat} {name : Name} (unique : UniqueNames (volume.entries dir))
    (bound : volume.graph.bind dir name = some ino) :
    (volume.setEntries dir ((volume.entries dir).erase ⟨name, ino⟩)).graph =
      volume.graph.setBind dir name none := by
  simp only [graph, DirGraph.setBind, setEntries_fields, DirGraph.mk.injEq, true_and]
  funext place called
  by_cases same : place = dir
  · subst same
    simp only [Function.update_self]
    by_cases gone : called = name
    · subst gone
      simp only [Function.update_self]
      exact unique.findEntry_erase_self (findEntry_mem bound)
    · rw [Function.update_of_ne gone]
      exact unique.findEntry_erase_of_ne (fun equal => gone equal.symm)
  · simp [same]

/-- Names are unique in each directory, stored counts fit their sixteen bits, and the graph
is well held. -/
structure Tidy (volume : ExtVolume) : Prop where
  names : ∀ dir, UniqueNames (volume.entries dir)
  counts : ∀ ino links, volume.graph.node ino = some (.leaf links) → links < 65536
  held : volume.graph.WellHeld extRootIno

/-- What an operation leaves when it edits the graph of a tidy volume. -/
structure Edited (proper : Prop) (before after : ExtVolume) : Prop where
  tidy : after.Tidy
  edits : DirGraph.Edits proper before.graph after.graph

section Edited

variable {proper : Prop} {before middle after : ExtVolume} {dir ino : Nat} {name : Name}

theorem Tidy.edited (tidy : before.Tidy) (graph : after.graph = before.graph)
    (entries : after.entries = before.entries) : Edited proper before after where
  tidy :=
    { names := by
        rw [entries]
        exact tidy.names
      counts := by
        rw [graph]
        exact tidy.counts
      held := by
        rw [graph]
        exact tidy.held }
  edits := by
    rw [graph]
    exact .refl proper _

theorem Tidy.refl (tidy : before.Tidy) : Edited proper before before := tidy.edited rfl rfl

theorem Edited.trans (first : Edited proper before middle) (second : Edited proper middle after) :
    Edited proper before after where
  tidy := second.tidy
  edits := first.edits.trans second.edits

theorem EditsInode.edited (edit : EditsInode ino before after) (tidy : before.Tidy) :
    Edited proper before after :=
  tidy.edited edit.graph edit.entries

theorem Tidy.enter {node : Node} (tidy : before.Tidy)
    (graph : after.graph = before.graph.apply (.enter dir name ino node))
    (names : ∀ dir, UniqueNames (after.entries dir))
    (allowed : before.graph.Allowed (.enter dir name ino node))
    (narrow : ∀ links, node = .leaf links → links < 65536) : Edited proper before after where
  tidy :=
    { names := names
      counts := by
        intro other links known
        rw [graph] at known
        change Function.update before.graph.node ino (some node) other = _ at known
        by_cases same : other = ino
        · rw [same, Function.update_self] at known
          exact narrow links (Option.some.inj known)
        · rw [Function.update_of_ne same] at known
          exact tidy.counts other links known
      held := by
        rw [graph]
        exact tidy.held.enter allowed }
  edits := by
    rw [graph]
    exact .single ⟨allowed, fun _ => trivial⟩

theorem Tidy.leave {left : Option Node} (tidy : before.Tidy)
    (graph : after.graph = before.graph.apply (.leave dir name ino left))
    (names : ∀ dir, UniqueNames (after.entries dir))
    (allowed : before.graph.Allowed (.leave dir name ino left)) : Edited proper before after where
  tidy :=
    { names := names
      counts := by
        intro other links known
        rw [graph] at known
        change Function.update before.graph.node ino left other = _ at known
        by_cases same : other = ino
        · rw [same, Function.update_self] at known
          obtain ⟨-, -, old, was, loses⟩ := allowed
          subst known
          cases loses
          have bounded := tidy.counts ino _ was
          omega
        · rw [Function.update_of_ne same] at known
          exact tidy.counts other links known
      held := by
        rw [graph]
        exact tidy.held.leave allowed }
  edits := by
    rw [graph]
    exact .single ⟨allowed, fun _ => trivial⟩

theorem Tidy.move {fromDir toDir : Nat} {fromName toName : Name} (tidy : before.Tidy)
    (graph : after.graph = before.graph.apply (.move fromDir fromName toDir toName ino))
    (names : ∀ dir, UniqueNames (after.entries dir))
    (allowed : before.graph.Allowed (.move fromDir fromName toDir toName ino))
    (above : proper → before.graph.IsDir ino → ¬ before.graph.Within ino toDir) :
    Edited proper before after where
  tidy :=
    { names := names
      counts := by
        intro other links known
        rw [graph] at known
        change Function.update before.graph.node ino _ other = _ at known
        by_cases same : other = ino
        · rw [same, Function.update_self] at known
          obtain ⟨old, was, moved⟩ := Option.map_eq_some_iff.mp known
          cases old with
          | dir up => cases moved
          | leaf before =>
              cases moved
              exact tidy.counts ino links was
        · rw [Function.update_of_ne same] at known
          exact tidy.counts other links known
      held := by
        rw [graph]
        exact tidy.held.move allowed }
  edits := by
    rw [graph]
    exact .single ⟨allowed, above⟩

theorem Tidy.names_add (tidy : before.Tidy) (calls : ExtCalls) (ino : Nat)
    (entries : middle.entries = before.entries) (free : before.graph.bind dir name = none)
    (place : Nat) : UniqueNames ((middle.addEntry calls dir name ino).entries place) := by
  rw [show (middle.addEntry calls dir name ino).entries = Function.update middle.entries dir
    (insertEntry calls.arrange (middle.entries dir) name ino) by simp, entries]
  by_cases same : place = dir
  · rw [same, Function.update_self]
    exact (tidy.names dir).insertEntry calls.arrange free ino
  · rw [Function.update_of_ne same]
    exact tidy.names place

theorem names_erase (names : ∀ dir, UniqueNames (before.entries dir)) (dir : Nat)
    (entry : DirEntry Name) (place : Nat) :
    UniqueNames ((before.setEntries dir ((before.entries dir).erase entry)).entries place) := by
  rw [entries_setEntries]
  by_cases same : place = dir
  · rw [same, Function.update_self]
    exact (names dir).erase entry
  · rw [Function.update_of_ne same]
    exact names place

end Edited

end ExtVolume

end Rufux.Mountd
