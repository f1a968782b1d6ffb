import Rufux.Library.DirTree
import Rufux.Mountd.Ntfs.Cases

/-!
The directory graph of an NTFS volume, what the FILE_NAME attributes and the parent cache
say of it, and the edits of it that the operations of `mountd_nfs.c` come to.
-/

namespace Rufux.Mountd

open Rufux.Library NtfsVolume

/-- The directory that the first FILE_NAME attribute names. -/
def NtfsRecord.parent (record : NtfsRecord) : Nat :=
  match record.fileNames with
  | [] => fileRoot
  | (parent, _) :: _ => parent

def NtfsRecord.node (record : NtfsRecord) : Node :=
  if record.isDir then .dir record.parent else .leaf record.fileNames.length

def NtfsVolume.graph (volume : NtfsVolume) : DirGraph UcsName where
  node ino := (volume.record ino).map NtfsRecord.node
  bind dir name := findEntry (volume.entries dir) name

namespace NtfsVolume

theorem graph_congr {before after : NtfsVolume}
    (node : ∀ ino, after.graph.node ino = before.graph.node ino)
    (entries : after.entries = before.entries) : after.graph = before.graph := by
  have nodes : after.graph.node = before.graph.node := funext node
  have binds : after.graph.bind = before.graph.bind := by
    funext dir name
    simp only [graph, entries]
  generalize after.graph = left at *
  generalize before.graph = right at *
  cases left
  cases right
  cases nodes
  cases binds
  rfl

theorem graph_setRecord (volume : NtfsVolume) (ino : Nat) (record : Option NtfsRecord) :
    (volume.setRecord ino record).graph =
      volume.graph.setNode ino (record.map NtfsRecord.node) := by
  simp only [graph, DirGraph.setNode, setRecord_fields, DirGraph.mk.injEq, and_true]
  funext other
  by_cases same : other = ino
  · subst same
    simp
  · simp [same]

theorem graph_bumpSequence (volume : NtfsVolume) (ino : Nat) :
    (volume.bumpSequence ino).graph = volume.graph := rfl

theorem graph_setEntries (volume : NtfsVolume) {dir : Nat} {name : UcsName}
    {list : List (DirEntry UcsName)} {target : Option Nat}
    (here : findEntry list name = target)
    (elsewhere : ∀ other, other ≠ name → findEntry list other = volume.graph.bind dir other) :
    (volume.setEntries dir list).graph = volume.graph.setBind dir name target := by
  simp only [graph, DirGraph.setBind, setEntries_fields, DirGraph.mk.injEq, true_and]
  funext place called
  by_cases same : place = dir
  · subst same
    by_cases named : called = name
    · subst named
      simpa using here
    · simp only [Function.update_self, Function.update_of_ne named]
      exact elsewhere called named
  · simp [same]

theorem graph_insertEntry (volume : NtfsVolume) {dir : Nat} {name : UcsName} (calls : NtfsCalls)
    (ino : Nat) (unique : UniqueNames (volume.entries dir))
    (free : volume.graph.bind dir name = none) :
    (volume.setEntries dir (insertEntry calls.arrange (volume.entries dir) name ino)).graph =
      volume.graph.setBind dir name (some ino) :=
  graph_setEntries volume (findEntry_insertEntry_self _ free ino)
    fun _ different => findEntry_insertEntry_other _ unique free different

theorem graph_eraseEntry (volume : NtfsVolume) {dir ino : Nat} {name : UcsName}
    (calls : NtfsCalls) (unique : UniqueNames (volume.entries dir))
    (bound : volume.graph.bind dir name = some ino) :
    (volume.setEntries dir
      (rearrange calls.arrange ((volume.entries dir).erase ⟨name, ino⟩))).graph =
      volume.graph.setBind dir name none := by
  have order := rearrange_perm calls.arrange ((volume.entries dir).erase ⟨name, ino⟩)
  refine graph_setEntries volume ?_ fun other different => ?_
  · rw [(unique.erase _).findEntry_perm order]
    exact unique.findEntry_erase_self (findEntry_mem bound)
  · rw [(unique.erase _).findEntry_perm order]
    exact unique.findEntry_erase_of_ne fun same => different same.symm

theorem EditsRecord.graph {ino : Nat} {before after : NtfsVolume}
    (edit : EditsRecord ino before after) : after.graph = before.graph := by
  refine graph_congr (fun other => ?_) edit.entries
  simp only [NtfsVolume.graph]
  by_cases same : other = ino
  · subst same
    rcases edit.sameRecord with kept | ⟨old, new, was, now, kind⟩
    · rw [kept]
    · rw [was, now]
      simp only [Option.map_some, NtfsRecord.node, NtfsRecord.parent, kind.isDir, kind.fileNames]
  · rw [edit.otherRecord other same]

/-- Names are unique in each index, the FILE_NAME attributes of a record are its places, record
zero (`$MFT`) is no directory, and the graph is well held. -/
structure Tidy (volume : NtfsVolume) : Prop where
  names : ∀ dir, UniqueNames (volume.entries dir)
  places : ∀ ino record, volume.record ino = some record → ino ≠ fileRoot →
    record.fileNames.Nodup ∧ ∀ place, place ∈ record.fileNames ↔ place ∈ volume.graph.refs ino
  plain : ∀ ino, volume.record ino ≠ none → ino < 2 ^ 48
  mft : ∀ record, volume.record 0 = some record → record.isDir = false
  held : volume.graph.WellHeld fileRoot

structure Edited (proper : Prop) (before after : NtfsVolume) : Prop where
  tidy : after.Tidy
  edits : DirGraph.Edits proper before.graph after.graph

section Edited

variable {proper : Prop} {before middle after : NtfsVolume}

theorem Edited.trans (first : Edited proper before middle) (second : Edited proper middle after) :
    Edited proper before after where
  tidy := second.tidy
  edits := first.edits.trans second.edits

theorem Tidy.refl (tidy : before.Tidy) : Edited proper before before := ⟨tidy, .refl proper _⟩

theorem EditsRecord.edited {ino : Nat} (edit : EditsRecord ino before after) (tidy : before.Tidy) :
    Edited proper before after where
  tidy :=
    { names := by
        rw [edit.entries]
        exact tidy.names
      places := by
        intro other record known notRoot
        rw [edit.graph]
        by_cases same : other = ino
        · subst same
          rcases edit.sameRecord with kept | ⟨old, new, was, now, kind⟩
          · exact tidy.places other record (kept ▸ known) notRoot
          · rw [known] at now
            cases now
            rw [kind.fileNames]
            exact tidy.places other old was notRoot
        · rw [edit.otherRecord other same] at known
          exact tidy.places other record known notRoot
      plain := by
        intro other used
        by_cases same : other = ino
        · subst same
          rcases edit.sameRecord with kept | ⟨old, new, was, now, kind⟩
          · exact tidy.plain other (kept ▸ used)
          · exact tidy.plain other (by simp [was])
        · rw [edit.otherRecord other same] at used
          exact tidy.plain other used
      mft := by
        intro record known
        by_cases same : 0 = ino
        · subst same
          rcases edit.sameRecord with kept | ⟨old, new, was, now, kind⟩
          · exact tidy.mft record (kept ▸ known)
          · rw [known] at now
            cases now
            rw [kind.isDir]
            exact tidy.mft old was
        · rw [edit.otherRecord 0 same] at known
          exact tidy.mft record known
      held := by
        rw [edit.graph]
        exact tidy.held }
  edits := by
    rw [edit.graph]
    exact .refl proper _

/-- One edit of the graph, with the FILE_NAME attributes following it. -/
theorem Tidy.edited {edit : DirGraph.Edit UcsName} {left : Option NtfsRecord} (tidy : before.Tidy)
    (fits : DirGraph.Fits proper before.graph edit) (graph : after.graph = before.graph.apply edit)
    (names : ∀ dir, UniqueNames (after.entries dir))
    (record : after.record = Function.update before.record edit.object left)
    (places : ∀ record, left = some record → edit.object < 2 ^ 48 ∧
      (edit.object = 0 → record.isDir = false) ∧ record.fileNames.Nodup ∧
      ∀ place, place ∈ record.fileNames ↔ place ∈ (before.graph.apply edit).refs edit.object) :
    Edited proper before after where
  tidy :=
    { names := names
      places := by
        intro other known present notRoot
        rw [record] at present
        rw [graph]
        by_cases same : other = edit.object
        · rw [same, Function.update_self] at present
          rw [same]
          exact (places known present).2.2
        · rw [Function.update_of_ne same] at present
          rw [DirGraph.refs_apply_other fits.1 same]
          exact tidy.places other known present notRoot
      plain := by
        intro other used
        rw [record] at used
        by_cases same : other = edit.object
        · rw [same, Function.update_self] at used
          obtain ⟨known, present⟩ := Option.ne_none_iff_exists'.mp used
          rw [same]
          exact (places known present).1
        · rw [Function.update_of_ne same] at used
          exact tidy.plain other used
      mft := by
        intro known present
        rw [record] at present
        by_cases same : 0 = edit.object
        · rw [← same, Function.update_self] at present
          exact (places known present).2.1 same.symm
        · rw [Function.update_of_ne same] at present
          exact tidy.mft known present
      held := by
        rw [graph]
        exact tidy.held.apply fits.1 }
  edits := by
    rw [graph]
    exact .single fits

end Edited

end NtfsVolume

end Rufux.Mountd
