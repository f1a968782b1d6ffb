import Rufux.Mountd.Ext.Graph

/-!
Each ext operation as edits of the directory graph. The calls that an edit rests on must
not fail (a look-up that fails is read as a missing name, and a link count that is not
written is wrong from then on); any other call may.
-/

namespace Rufux.Mountd

open Rufux.Library ExtVolume

/-- The calls that a half-made edit could come from do not fail. -/
structure ExtCalls.Whole (calls : ExtCalls) : Prop where
  lookup : ∀ role, calls.fault (.lookup role) = none
  count : calls.fault (.writeInode .child) = none
  innerCount : calls.fault (.inner (.writeInode .child)) = none
  unlink : calls.fault (.unlink .source) = none
  dotdot : calls.fault (.iterate .source) = none

section Operations

variable {proper : Prop} {config : Config} {calls : ExtCalls} {volume : ExtVolume} {dir : Nat}
  {name : Name}

theorem isDir_graph {ino : Nat} (used : volume.inodeMap ino = true)
    (isDir : (volume.inode ino).isDir = true) : volume.graph.IsDir ino :=
  ⟨volume.dotdot ino, by simp [graph, used, ExtInode.node, isDir]⟩

theorem ExtInode.node_of_leaf {inode : ExtInode} (notDir : inode.isDir = false) (up : Nat) :
    inode.node up = .leaf inode.linksCount := by
  simp [ExtInode.node, notDir]

theorem leaf_graph {ino : Nat} (used : volume.inodeMap ino = true)
    (notDir : (volume.inode ino).isDir = false) :
    volume.graph.node ino = some (.leaf (volume.inode ino).linksCount) := by
  simp [graph, used, ExtInode.node, notDir]

theorem isDir_of_graph {ino : Nat} (isDir : volume.graph.IsDir ino) :
    volume.inodeMap ino = true ∧ (volume.inode ino).isDir = true := by
  obtain ⟨up, known⟩ := isDir
  simp only [graph, ExtInode.node] at known
  split at known
  · rename_i used
    split at known
    · rename_i directory
      exact ⟨used, directory⟩
    · cases known
  · cases known

theorem free_graph {ino : Nat} (unused : volume.inodeMap ino = false) :
    volume.graph.node ino = none := by
  simp [graph, unused]

theorem graph_setContent (ino : Nat) (bytes : List UInt8) :
    (volume.setContent ino bytes).graph = volume.graph := rfl

theorem ext2fsWriteInode_graph (fault : Option Errcode) (volume : ExtVolume) (ino : Nat)
    (inode : ExtInode) : ∃ node, (ext2fsWriteInode fault volume ino inode).graph =
      volume.graph.setNode ino node := by
  cases fault with
  | some code => exact ⟨_, (DirGraph.setNode_self rfl).symm⟩
  | none => exact ⟨_, graph_setInode volume ino inode⟩

/-- CREATE that fails midway gives its number back. -/
theorem extUndoCreate_edited (config : Config) (calls : ExtCalls) (dir : Nat) (tidy : volume.Tidy)
    {marked : ExtVolume} {ino : Nat} (nin : ExtInode) (pre : WccPre) (code : Errcode)
    (unused : volume.inodeMap ino = false)
    (graph : ∃ node, marked.graph = volume.graph.setNode ino node)
    (entries : marked.entries = volume.entries) :
    Edited proper volume (extUndoCreate config calls marked dir ino nin pre code).2 := by
  obtain ⟨first, marks⟩ := graph
  obtain ⟨second, writes⟩ := ext2fsWriteInode_graph (calls.fault (.writeInode .child)) marked ino
    { nin with linksCount := 0, dtime := calls.now }
  refine tidy.edited ?_ ?_
  · unfold extUndoCreate
    rw [graph_markInode, writes, marks]
    simp only [DirGraph.setNode_setNode]
    exact DirGraph.setNode_self (free_graph unused)
  · unfold extUndoCreate ext2fsWriteInode
    cases calls.fault (.writeInode .child) <;> exact entries

/-- A new object gets its entry. -/
theorem edited_enter {ino : Nat} {node : Node} {start grown : ExtVolume} (tidy : volume.Tidy)
    (graph : start.graph = volume.graph.setNode ino (some node))
    (entries : start.entries = volume.entries) (edit : EditsInode dir start grown)
    (allowed : volume.graph.Allowed (.enter dir name ino node))
    (narrow : ∀ links, node = .leaf links → links < 65536) :
    Edited proper volume (grown.addEntry calls dir name ino) := by
  have same : grown.entries = volume.entries := edit.entries.trans entries
  refine tidy.enter ?_ ?_ allowed narrow
  · rw [graph_addEntry grown calls ino (same ▸ tidy.names dir), edit.graph, graph]
    · rfl
    · rw [edit.graph, graph]
      exact allowed.2.1
  · exact tidy.names_add calls ino same allowed.2.1

theorem newRegInode_node (config : Config) (now : Nat) (sattr : Option SAttr3) (up : Nat) :
    (newRegInode config now sattr).node up = .leaf 1 := by
  cases sattr <;> rfl

theorem extCreateNew_edited (tidy : volume.Tidy) (live : volume.graph.IsDir dir)
    (free : volume.graph.bind dir name = none) (dirAttr : NfsAttr) (sattr : Option SAttr3) :
    Edited proper volume (extCreateNew config calls volume dir name dirAttr sattr).2 := by
  unfold extCreateNew
  split
  · exact tidy.refl
  rename_i ino fresh
  obtain ⟨-, -, -, -, unused, -⟩ := ext2fsNewInode_ok fresh
  simp only
  split
  · exact extUndoCreate_edited _ _ _ tidy _ _ _ unused ⟨_, graph_markInode volume ino true⟩ rfl
  have written : (((volume.markInode ino true).setInode ino
      (newRegInode config calls.now sattr)).setContent ino []).graph =
        volume.graph.setNode ino (some (.leaf 1)) := by
    rw [graph_setContent, graph_setInode, graph_markInode]
    simp [newRegInode_node]
  obtain ⟨grown, edit, failed | linked⟩ := extLinkWithExpand_cases calls .dir
    (((volume.markInode ino true).setInode ino (newRegInode config calls.now sattr)).setContent
      ino []) dir name ino
  · obtain ⟨code, failed⟩ := failed
    rw [failed]
    exact extUndoCreate_edited _ _ _ tidy _ _ _ unused ⟨_, edit.graph.trans written⟩ edit.entries
  · rw [linked]
    have entered : Edited proper volume (grown.addEntry calls dir name ino) := by
      refine edited_enter tidy written rfl edit ⟨live, free, ?_⟩ ?_
      · rw [free_graph unused]
        exact .leaf
      · rintro links ⟨⟩
        decide
    have touched := entered.trans ((editsInode_touchDir calls .dir _ dir).edited entered.tidy)
    simp only
    split
    · split
      · exact touched.trans ((editsInode_opSetattr config calls.inner _ ino _).edited touched.tidy)
      · exact touched
    · exact touched

theorem extOpCreate_edited (whole : calls.Whole) (tidy : volume.Tidy) (mode : CreateMode)
    (sattr : Option SAttr3) :
    Edited proper volume (extOpCreate config calls volume dir name mode sattr).2 := by
  unfold extOpCreate
  split
  · exact tidy.refl
  rename_i din valid
  obtain ⟨-, -, used, rfl, -, -⟩ := extReadValidInode_ok valid
  simp only
  split
  · exact tidy.refl
  rename_i directory
  split
  · exact tidy.refl
  rename_i legal
  split
  · exact tidy.refl
  split
  · rename_i existing found
    split
    · exact tidy.refl
    · unfold extCreateExisting
      cases sattr with
      | none => exact tidy.refl
      | some settings =>
          exact (editsInode_opSetattr config calls.inner volume existing settings).edited tidy
  · rename_i code missing
    exact extCreateNew_edited tidy (isDir_graph used (by simpa using directory))
      (ext2fsLookup_missing (by simpa using legal) (whole.lookup .dir) missing) _ sattr

theorem WellHeld_bare {ino : Nat} (held : volume.graph.WellHeld extRootIno)
    (unused : volume.inodeMap ino = false) : volume.entries ino = [] := by
  refine eq_nil_of_findEntry fun name => ?_
  by_contra full
  obtain ⟨target, bound⟩ := Option.ne_none_iff_exists'.mp full
  obtain ⟨up, known⟩ := held.holders ino name target bound
  rw [free_graph unused] at known
  cases known

theorem ext2fsMkdir2_edited {site : ExtSite} {made : Nat × ExtVolume} (tidy : volume.Tidy)
    (live : volume.graph.IsDir dir) (leaf : validLeafName name = true)
    (created : ext2fsMkdir2 calls site volume dir name = .ok made) :
    Edited proper volume made.2 ∧ (made.2.inode made.1).isDir = true := by
  unfold ext2fsMkdir2 at created
  split at created
  · cases created
  rename_i ino fresh
  obtain ⟨-, -, -, -, unused, -⟩ := ext2fsNewInode_ok fresh
  have different : dir ≠ ino := by
    rintro rfl
    obtain ⟨up, known⟩ := live
    rw [free_graph unused] at known
    cases known
  split at created
  · cases created
  rename_i missing
  have free := ext2fsLookup_missing leaf rfl missing
  cases created
  generalize made : (((volume.setInode ino (newDirInode calls volume)).claimBlocks ino
    ((calls.newBlocks site).take 1)).setDotdot ino dir).markInode ino true = named
  have claimed := editsInode_claimBlocks (volume.setInode ino (newDirInode calls volume)) ino
    ((calls.newBlocks site).take 1)
  have isDir : (named.inode ino).isDir = true := by
    rw [← made]
    simp [claimBlocks_inode, newDirInode, ExtInode.isDir]
  have namedGraph : named.graph = volume.graph.setNode ino (some (.dir dir)) := by
    rw [← made, graph_markInode, graph_setDotdot, claimed.graph, graph_setInode]
    simp [claimBlocks_inode, newDirInode, ExtInode.node, ExtInode.isDir]
  have namedEntries : (named.setEntries ino []).entries = volume.entries := by
    rw [entries_setEntries, ← made]
    simp only [markInode_fields, setDotdot_fields, claimBlocks_fields, setInode_fields]
    rw [← WellHeld_bare tidy.held unused, Function.update_eq_self]
  have emptied : (named.setEntries ino []).graph = volume.graph.setNode ino (some (.dir dir)) := by
    rw [← namedGraph]
    refine graph_congr (fun _ => rfl) ?_
    rw [namedEntries, ← made]
    simp
  have grown := editsInode_growDir (named.setEntries ino []) dir ((calls.newBlocks site).drop 1)
  have entered : Edited proper volume (((named.setEntries ino []).growDir dir
      ((calls.newBlocks site).drop 1)).addEntry calls dir name ino) := by
    refine edited_enter tidy emptied namedEntries grown ⟨live, free, ?_⟩ (by rintro _ ⟨⟩)
    rw [free_graph unused]
    exact .subdir
  generalize linked : ((named.setEntries ino []).growDir dir ((calls.newBlocks site).drop 1)).addEntry
    calls dir name ino = final at *
  have inodes (other : Nat) : (final.inode other).isDir = (named.inode other).isDir := by
    rw [← linked]
    exact grown.isDir_eq other
  have parentDir : (final.inode dir).isDir = true := by
    rw [inodes, ← made]
    simpa [claimBlocks_inode, different] using (isDir_of_graph live).2
  refine ⟨entered.trans (entered.tidy.edited (graph_setInode_dir final parentDir parentDir) rfl), ?_⟩
  simp only [setInode_fields, Function.update_of_ne different.symm]
  rw [inodes, isDir]

theorem extMkdirWithExpand_edited (tidy : volume.Tidy) (live : volume.graph.IsDir dir)
    (leaf : validLeafName name = true) :
    Edited proper volume (extMkdirWithExpand calls volume dir name).2 ∧
      ∀ ino, (extMkdirWithExpand calls volume dir name).1 = .ok ino →
        ((extMkdirWithExpand calls volume dir name).2.inode ino).isDir = true := by
  unfold extMkdirWithExpand
  split
  · rename_i made created
    obtain ⟨edited, isDir⟩ := ext2fsMkdir2_edited tidy live leaf created
    refine ⟨edited, fun ino same => ?_⟩
    cases same
    exact isDir
  split
  · split
    · exact ⟨tidy.refl, fun ino same => nomatch same⟩
    have grown := editsInode_growDir volume dir (calls.newBlocks (.expandDir .dir))
    have first : Edited proper volume (volume.growDir dir (calls.newBlocks (.expandDir .dir))) :=
      grown.edited tidy
    simp only
    split
    · rename_i made created
      obtain ⟨edited, isDir⟩ := ext2fsMkdir2_edited first.tidy (grown.graph ▸ live) leaf created
      refine ⟨first.trans edited, fun ino same => ?_⟩
      cases same
      exact isDir
    · exact ⟨first, fun ino same => nomatch same⟩
  · exact ⟨tidy.refl, fun ino same => nomatch same⟩

theorem extOpMkdir_edited (tidy : volume.Tidy) (sattr : Option SAttr3) :
    Edited proper volume (extOpMkdir config calls volume dir name sattr).2 := by
  unfold extOpMkdir
  split
  · exact tidy.refl
  rename_i din valid
  obtain ⟨-, -, used, rfl, -, -⟩ := extReadValidInode_ok valid
  simp only
  split
  · exact tidy.refl
  rename_i directory
  split
  · exact tidy.refl
  rename_i legal
  obtain ⟨edited, isDir⟩ := (@extMkdirWithExpand_edited proper calls) tidy
    (isDir_graph used (by simpa using directory)) (by simpa using legal)
  split
  · exact tidy.refl
  split
  · exact tidy.refl
  split
  · rename_i code left failed
    rw [failed] at edited
    exact edited
  rename_i ino made created
  rw [created] at edited isDir
  have dressed (inode : ExtInode) (stays : inode.isDir = true) :
      Edited proper made (ext2fsWriteInode (calls.fault (.writeInode .child)) made ino inode) := by
    cases calls.fault (.writeInode .child) with
    | some code => exact edited.tidy.refl
    | none => exact edited.tidy.edited (graph_setInode_dir made (isDir ino rfl) stays) rfl
  simp only
  split
  · exact edited.trans ((editsInode_touchDir calls .dir made dir).edited edited.tidy)
  · rename_i inode _
    have stays : (extDressDir config calls inode sattr).isDir = true := by
      cases sattr <;> rfl
    have done := edited.trans (dressed _ stays)
    exact done.trans ((editsInode_touchDir calls .dir _ dir).edited done.tidy)

theorem newSymlinkInode_node (calls : ExtCalls) (target : Name) (up : Nat) :
    (newSymlinkInode calls target).node up = .leaf 1 := rfl

theorem ext2fsSymlink_edited {site : ExtSite} {target : Name} {made : ExtVolume}
    (tidy : volume.Tidy) (live : volume.graph.IsDir dir) (leaf : validLeafName name = true)
    (created : ext2fsSymlink calls site volume dir name target = .ok made) :
    Edited proper volume made := by
  unfold ext2fsSymlink at created
  split at created
  · cases created
  split at created
  · cases created
  rename_i ino fresh
  obtain ⟨-, -, -, -, unused, -⟩ := ext2fsNewInode_ok fresh
  split at created
  · cases created
  rename_i missing
  have free := ext2fsLookup_missing leaf rfl missing
  cases created
  have stored : EditsInode ino (volume.setInode ino (newSymlinkInode calls target))
      (if target.length < 60 then volume.setInode ino (newSymlinkInode calls target)
        else ((volume.setInode ino (newSymlinkInode calls target)).claimBlocks ino
          ((calls.newBlocks site).take 1)).setContent ino target) := by
    split
    · exact .refl ino _
    · exact (editsInode_claimBlocks _ ino _).trans (editsInode_setContent _ ino _)
  generalize (if target.length < 60 then volume.setInode ino (newSymlinkInode calls target)
    else ((volume.setInode ino (newSymlinkInode calls target)).claimBlocks ino
      ((calls.newBlocks site).take 1)).setContent ino target) = written at *
  have node : (written.inode ino).node (written.dotdot ino) = .leaf 1 := by
    simp [ExtInode.node, ExtInode.isDir, stored.format, stored.linksCount, newSymlinkInode]
  have marked : (written.markInode ino true).graph =
      volume.graph.setNode ino (some (.leaf 1)) := by
    rw [graph_markInode, node, stored.graph, graph_setInode]
    simp
  refine edited_enter tidy marked stored.entries (editsInode_growDir _ dir _) ⟨live, free, ?_⟩ ?_
  · rw [free_graph unused]
    exact .leaf
  · rintro links ⟨⟩
    decide

theorem extSymlinkWithExpand_edited {target : Name} (tidy : volume.Tidy)
    (live : volume.graph.IsDir dir) (leaf : validLeafName name = true) :
    Edited proper volume (extSymlinkWithExpand calls volume dir name target).2 := by
  unfold extSymlinkWithExpand
  split
  · rename_i made created
    exact ext2fsSymlink_edited tidy live leaf created
  split
  · split
    · exact tidy.refl
    have grown := editsInode_growDir volume dir (calls.newBlocks (.expandDir .dir))
    have first : Edited proper volume (volume.growDir dir (calls.newBlocks (.expandDir .dir))) :=
      grown.edited tidy
    simp only
    split
    · rename_i made created
      exact first.trans (ext2fsSymlink_edited first.tidy (grown.graph ▸ live) leaf created)
    · exact first
  · exact tidy.refl

theorem extOpSymlink_edited (tidy : volume.Tidy) (sattr : Option SAttr3) (target : Name) :
    Edited proper volume (extOpSymlink config calls volume dir name sattr target).2 := by
  unfold extOpSymlink
  split
  · exact tidy.refl
  split
  · exact tidy.refl
  rename_i din valid
  obtain ⟨-, -, used, rfl, -, -⟩ := extReadValidInode_ok valid
  simp only
  split
  · exact tidy.refl
  rename_i directory
  split
  · exact tidy.refl
  rename_i legal
  have edited := (@extSymlinkWithExpand_edited proper calls _ _ _ target)
    tidy (isDir_graph used (by simpa using directory)) (by simpa using legal)
  split
  · exact tidy.refl
  split
  · exact tidy.refl
  split
  · rename_i code left failed
    rw [failed] at edited
    exact edited
  rename_i made created
  rw [created] at edited
  split
  · exact edited
  rename_i ino found
  have dressed (inode : ExtInode)
      (read : ext2fsReadInode (calls.fault (.readInode .child)) made ino = .ok inode) :
      EditsInode ino made (ext2fsWriteInode (calls.fault (.writeInode .child)) made ino
        (extDressSymlink config calls inode sattr)) := by
    unfold ext2fsReadInode at read
    split at read
    · cases read
    · cases read
      cases calls.fault (.writeInode .child) with
      | some code => exact .refl ino made
      | none => refine editsInode_setInode made ino _ ?_ ?_ ?_ ?_ <;> cases sattr <;> rfl
  simp only
  split
  · exact edited.trans ((editsInode_touchDir calls .dir made dir).edited edited.tidy)
  · rename_i inode read
    have done := edited.trans ((dressed inode read).edited edited.tidy)
    exact done.trans ((editsInode_touchDir calls .dir _ dir).edited done.tidy)

theorem extOpLink_edited (whole : calls.Whole) (tidy : volume.Tidy) (ino : Nat) :
    Edited proper volume (extOpLink config calls volume ino dir name).2 := by
  unfold extOpLink
  split
  · exact tidy.refl
  rename_i din valid
  obtain ⟨-, -, used, rfl, -, -⟩ := extReadValidInode_ok valid
  simp only
  split
  · exact tidy.refl
  rename_i fin fileValid
  obtain ⟨-, -, fileUsed, rfl, linked, -⟩ := extReadValidInode_ok fileValid
  split
  · exact tidy.refl
  rename_i directory
  split
  · exact tidy.refl
  rename_i notDir
  split
  · exact tidy.refl
  rename_i legal
  split
  · exact tidy.refl
  split
  · exact tidy.refl
  rename_i code missing
  have live := isDir_graph used (by simpa using directory)
  have free := ext2fsLookup_missing (by simpa using legal) (whole.lookup .dir) missing
  obtain ⟨grown, edit, failed | added⟩ := extLinkWithExpand_cases calls .dir volume dir name ino
  · obtain ⟨code, failed⟩ := failed
    rw [failed]
    exact edit.edited tidy
  rw [added]
  simp only [whole.count, ext2fsWriteInode_none]
  have file := leaf_graph fileUsed (by simpa using notDir)
  have same : grown.entries = volume.entries := edit.entries
  have entered : (grown.addEntry calls dir name ino).graph =
      volume.graph.setBind dir name (some ino) := by
    rw [graph_addEntry grown calls ino (same ▸ tidy.names dir), edit.graph]
    rw [edit.graph]
    exact free
  have counted : ((grown.addEntry calls dir name ino).setInode ino
      { incLinks (volume.inode ino) with ctime := calls.now }).graph =
        volume.graph.apply (.enter dir name ino
          (.leaf (((volume.inode ino).linksCount + 1) % 65536))) := by
    have stays : ({ incLinks (volume.inode ino) with ctime := calls.now } : ExtInode).isDir = false :=
      Bool.eq_false_iff.mpr notDir
    have used : (grown.addEntry calls dir name ino).inodeMap ino = true := by
      simp [edit.inodeMap, fileUsed]
    rw [graph_setInode, entered, if_pos used, ExtInode.node_of_leaf stays]
    rfl
  have done : Edited proper volume ((grown.addEntry calls dir name ino).setInode ino
      { incLinks (volume.inode ino) with ctime := calls.now }) := by
    refine tidy.enter counted (tidy.names_add calls ino same free) ⟨live, free, ?_⟩ ?_
    · rw [file]
      have bounded := tidy.counts ino _ file
      exact .link _ _ (.inl linked) (by omega)
    · rintro links ⟨⟩
      omega
  exact done.trans ((editsInode_touchDir calls .dir _ dir).edited done.tidy)

theorem extRelease_graph (fault again : Option Errcode) (volume : ExtVolume) (ino : Nat)
    (inode released : ExtInode) :
    ((ext2fsWriteInode fault (ext2fsPunch again volume ino inode).2 ino released).markInode ino
      false).graph = volume.graph.setNode ino none := by
  obtain ⟨node, wrote⟩ := ext2fsWriteInode_graph fault (ext2fsPunch again volume ino inode).2 ino
    released
  rw [graph_markInode, wrote]
  cases again with
  | some code => simp [ext2fsPunch]
  | none =>
      have punched : (ext2fsPunch none volume ino inode).2.graph =
          (volume.setInode ino (punchedInode volume inode)).graph := rfl
      rw [punched, graph_setInode]
      simp

/-- What is left of a leaf that loses a link. -/
theorem extDropLink_graph (whole : calls.fault (.writeInode .child) = none) {ino : Nat}
    {inode : ExtInode} (used : volume.inodeMap ino = true) (notDir : inode.isDir = false) :
    (extDropLink calls volume ino inode).graph = volume.graph.setNode ino
      (if 1 < inode.linksCount then some (.leaf (inode.linksCount - 1)) else none) := by
  unfold extDropLink
  split
  · have stays : ({ decLinks inode with ctime := calls.now } : ExtInode).isDir = false := notDir
    rw [whole, ext2fsWriteInode_none, graph_setInode, if_pos used, ExtInode.node_of_leaf stays]
    rfl
  · simp only
    split
    · exact extRelease_graph _ _ _ _ _ _
    · obtain ⟨node, wrote⟩ := ext2fsWriteInode_graph (calls.fault (.writeInode .child)) volume ino
        (releasedInode calls.now { inode with iBlock := [] })
      rw [graph_markInode, wrote]
      simp

/-- A name has left a directory, with its object or a link of it. -/
def Leaves (dir : Nat) (name : Name) (before after : ExtVolume) : Prop :=
  ∃ ino left, before.graph.Allowed (.leave dir name ino left) ∧
    after.graph = before.graph.apply (.leave dir name ino left) ∧
    ∀ place, UniqueNames (after.entries place)

theorem Leaves.edited {after : ExtVolume} (leaves : Leaves dir name volume after)
    (tidy : volume.Tidy) : Edited proper volume after := by
  obtain ⟨ino, left, allowed, graph, names⟩ := leaves
  exact tidy.leave graph names allowed

theorem extOpRemove_leaves (whole : calls.fault (.writeInode .child) = none) (tidy : volume.Tidy)
    (succeeded : (extOpRemove config calls volume dir name).1.status = .ok) :
    Leaves dir name volume (extOpRemove config calls volume dir name).2 := by
  obtain ⟨ino, -, -, valid, notDir, -, found, after⟩ := extOpRemove_ok_cases succeeded
  obtain ⟨-, -, used, -, linked, -⟩ := extReadValidInode_ok valid
  have file := leaf_graph used notDir
  have touched := editsInode_touchDir calls .dir (extDropLink calls
    (volume.setEntries dir ((volume.entries dir).erase ⟨name, ino⟩)) ino (volume.inode ino)) dir
  have entries := (extDropLink_entries calls
    (volume.setEntries dir ((volume.entries dir).erase ⟨name, ino⟩)) ino (volume.inode ino)).1
  rw [after]
  refine ⟨ino, if 1 < (volume.inode ino).linksCount then
    some (.leaf ((volume.inode ino).linksCount - 1)) else none, ⟨found, ?_, _, file, ?_⟩, ?_, ?_⟩
  · intro isDir
    rw [(isDir_of_graph isDir).2] at notDir
    cases notDir
  · generalize (volume.inode ino).linksCount = links at *
    match links, linked with
    | 1, _ => exact .last
    | links + 2, _ =>
        rw [if_pos (by omega)]
        exact .link links
  · rw [touched.graph, extDropLink_graph whole (by simpa using used) notDir,
      graph_eraseEntry volume (tidy.names dir) found]
    rfl
  · rw [touched.entries, entries]
    exact names_erase tidy.names dir _

theorem extOpRemove_edited (whole : calls.fault (.writeInode .child) = none) (tidy : volume.Tidy) :
    Edited proper volume (extOpRemove config calls volume dir name).2 := by
  by_cases succeeded : (extOpRemove config calls volume dir name).1.status = .ok
  · exact (extOpRemove_leaves whole tidy succeeded).edited tidy
  · rw [extOpRemove_refused succeeded]
    exact tidy.refl

theorem extReleaseDir_graph {ino : Nat} {inode : ExtInode} (different : dir ≠ ino)
    (parentDir : (volume.inode dir).isDir = true) :
    (extReleaseDir calls volume dir ino inode).graph = volume.graph.setNode ino none := by
  have released := extRelease_graph (calls.fault (.writeInode .child)) (calls.fault .punch) volume
    ino inode (releasedInode calls.now (ext2fsPunch (calls.fault .punch) volume ino inode).1)
  have kept : ((ext2fsWriteInode (calls.fault (.writeInode .child))
      (ext2fsPunch (calls.fault .punch) volume ino inode).2 ino
      (releasedInode calls.now (ext2fsPunch (calls.fault .punch) volume ino inode).1)).markInode ino
        false).inode dir = volume.inode dir := by
    unfold ext2fsWriteInode ext2fsPunch
    cases calls.fault (.writeInode .child) <;> cases calls.fault .punch <;> simp [different]
  unfold extReleaseDir ext2fsReadInode
  simp only
  generalize (ext2fsWriteInode (calls.fault (.writeInode .child))
    (ext2fsPunch (calls.fault .punch) volume ino inode).2 ino
    (releasedInode calls.now (ext2fsPunch (calls.fault .punch) volume ino inode).1)).markInode ino
      false = left at *
  rw [← released]
  cases calls.fault (.readInode .dir) with
  | some code => rfl
  | none =>
      cases calls.fault (.writeInode .dir) with
      | some code => rfl
      | none =>
          have isDir : (left.inode dir).isDir = true := by rw [kept, parentDir]
          refine graph_setInode_dir left isDir ?_
          split <;> exact isDir

theorem extOpRmdir_leaves (tidy : volume.Tidy)
    (succeeded : (extOpRmdir config calls volume dir name).1.status = .ok) :
    Leaves dir name volume (extOpRmdir config calls volume dir name).2 := by
  obtain ⟨ino, -, parentDir, valid, isDir, -, notRoot, empty, found, after⟩ :=
    extOpRmdir_ok_cases succeeded
  obtain ⟨-, -, used, -, -, -⟩ := extReadValidInode_ok valid
  have different : dir ≠ ino := by
    rintro rfl
    rw [empty] at found
    cases found
  obtain ⟨up, known⟩ := isDir_graph used isDir
  rw [after]
  refine ⟨ino, none, ⟨found, fun _ other => ?_, _, known, .dir up⟩, ?_, ?_⟩
  · simp [ExtVolume.graph, empty, findEntry]
  · rw [extReleaseDir_graph different (by simpa using parentDir),
      graph_eraseEntry volume (tidy.names dir) found]
    rfl
  · rw [(extReleaseDir_entries calls _ dir ino (volume.inode ino)).1]
    exact names_erase tidy.names dir _

theorem extOpRmdir_edited (tidy : volume.Tidy) :
    Edited proper volume (extOpRmdir config calls volume dir name).2 := by
  by_cases succeeded : (extOpRmdir config calls volume dir name).1.status = .ok
  · exact (extOpRmdir_leaves tidy succeeded).edited tidy
  · rw [extOpRmdir_refused succeeded]
    exact tidy.refl

theorem writeDir_graph (fault : Option Errcode) (isDir : volume.graph.IsDir dir)
    {inode : ExtInode} (stays : inode.isDir = true) :
    (ext2fsWriteInode fault volume dir inode).graph = volume.graph := by
  cases fault with
  | some code => rfl
  | none => exact graph_setInode_dir volume (isDir_of_graph isDir).2 stays

theorem extMoveDirCounts_graph {fromDir toDir : Nat} (fromIsDir : volume.graph.IsDir fromDir)
    (toIsDir : volume.graph.IsDir toDir) :
    (extMoveDirCounts calls volume fromDir toDir).graph = volume.graph := by
  have toCounted (start : ExtVolume) (isDir : start.graph.IsDir toDir) :
      (ext2fsWriteInode (calls.fault (.writeInode .toDir)) start toDir
        (if 2 ≤ (start.inode toDir).linksCount ∧ (start.inode toDir).linksCount < 65000 then
          incLinks (start.inode toDir) else start.inode toDir)).graph = start.graph := by
    refine writeDir_graph _ isDir ?_
    split <;> exact (isDir_of_graph isDir).2
  have fromCounted : (ext2fsWriteInode (calls.fault (.writeInode .fromDir)) volume fromDir
      (if 2 < (volume.inode fromDir).linksCount then decLinks (volume.inode fromDir)
        else volume.inode fromDir)).graph = volume.graph := by
    refine writeDir_graph _ fromIsDir ?_
    split <;> exact (isDir_of_graph fromIsDir).2
  unfold extMoveDirCounts ext2fsReadInode
  cases calls.fault (.readInode .fromDir) with
  | some code =>
      cases calls.fault (.readInode .toDir) with
      | some code => rfl
      | none => exact toCounted volume toIsDir
  | none =>
      cases calls.fault (.readInode .toDir) with
      | some code => exact fromCounted
      | none => exact (toCounted _ (fromCounted ▸ toIsDir)).trans fromCounted

/-- What a completed move makes of the graph in which the entry was moved. -/
theorem extMoved_graph (whole : calls.Whole) {fromDir toDir ino : Nat} {inode : ExtInode}
    (used : volume.inodeMap ino = true) (fromIsDir : volume.graph.IsDir fromDir)
    (toIsDir : volume.graph.IsDir toDir) :
    (extMoved calls fromDir toDir ino inode volume).graph =
      if inode.isDir = true ∧ fromDir ≠ toDir then
        volume.graph.setNode ino (some ((volume.inode ino).node toDir))
      else volume.graph := by
  have parented : (extReparent calls volume fromDir toDir ino inode).graph =
      if inode.isDir = true ∧ fromDir ≠ toDir then
        volume.graph.setNode ino (some ((volume.inode ino).node toDir))
      else volume.graph := by
    have pointed := graph_setDotdot volume ino toDir
    rw [if_pos used] at pointed
    have remains (dir : Nat) (isDir : volume.graph.IsDir dir) :
        (volume.setDotdot ino toDir).graph.IsDir dir := by
      obtain ⟨used, directory⟩ := isDir_of_graph isDir
      exact isDir_graph used directory
    unfold extReparent
    simp only [whole.dotdot]
    split
    · rw [extMoveDirCounts_graph (remains fromDir fromIsDir) (remains toDir toIsDir), pointed]
    · rfl
  have first := editsInode_touchDir calls .touchFrom
    (extReparent calls volume fromDir toDir ino inode) fromDir
  unfold extMoved
  simp only
  split
  · rw [(editsInode_touchDir calls .touchTo _ toDir).graph, first.graph, parented]
  · rw [first.graph, parented]

theorem extMoveEntry_edited (whole : calls.Whole) (tidy : volume.Tidy) {fromDir toDir ino : Nat}
    {fromName toName : Name} (bound : volume.graph.bind fromDir fromName = some ino)
    (toIsDir : volume.graph.IsDir toDir) (free : volume.graph.bind toDir toName = none)
    {inode : ExtInode} (kind : volume.graph.IsDir ino → inode.isDir = true)
    (above : proper → volume.graph.IsDir ino → ¬ volume.graph.Within ino toDir)
    (fromPre toPre : WccPre) :
    Edited proper volume (extMoveEntry config calls volume fromDir fromName toDir toName ino inode
      fromPre toPre).2 := by
  obtain ⟨grown, edit, failed | linked⟩ :=
    extLinkWithExpand_cases calls .target volume toDir toName ino
  · obtain ⟨code, failed⟩ := failed
    simp only [extMoveEntry, failed]
    exact edit.edited tidy
  rcases extMoveEntry_cases config calls volume fromDir toDir fromName toName ino inode fromPre toPre
    (findEntry_mem bound) with ⟨code, failed, -, -⟩ | ⟨-, code, failed, -, -⟩ | ⟨-, -, -, after⟩
  · rw [linked] at failed
    cases failed
  · rw [whole.unlink] at failed
    cases failed
  rw [after, linked]
  simp only
  have apart : ¬ (fromDir = toDir ∧ fromName = toName) := by
    rintro ⟨rfl, rfl⟩
    rw [free] at bound
    cases bound
  have used : volume.inodeMap ino = true := by
    by_contra unused
    exact tidy.held.targets fromDir fromName ino bound (free_graph (by simpa using unused))
  have addedNames := tidy.names_add calls ino edit.entries free
  have addedGraph : (grown.addEntry calls toDir toName ino).graph =
      volume.graph.setBind toDir toName (some ino) := by
    rw [graph_addEntry grown calls ino (edit.entries ▸ tidy.names toDir), edit.graph]
    rw [edit.graph]
    exact free
  have stillBound : (grown.addEntry calls toDir toName ino).graph.bind fromDir fromName =
      some ino := by
    rw [addedGraph, DirGraph.setBind_other _ _ apart]
    exact bound
  have erasedGraph := graph_eraseEntry _ (addedNames fromDir) stillBound
  rw [addedGraph] at erasedGraph
  have isDirs (dir : Nat) (isDir : volume.graph.IsDir dir) :
      ((grown.addEntry calls toDir toName ino).setEntries fromDir
        (((grown.addEntry calls toDir toName ino).entries fromDir).erase
          ⟨fromName, ino⟩)).graph.IsDir dir := by
    rw [erasedGraph]
    exact isDir
  have node : ((volume.inode ino).node toDir) =
      (((grown.addEntry calls toDir toName ino).setEntries fromDir
        (((grown.addEntry calls toDir toName ino).entries fromDir).erase
          ⟨fromName, ino⟩)).inode ino).node toDir := by
    simp [ExtInode.node, edit.isDir_eq, edit.linksCount_eq]
  have moved : (volume.graph.node ino).map (Node.movedTo toDir) =
      some ((volume.inode ino).node toDir) := by
    simp only [graph, used, ExtInode.node, if_true]
    split <;> rfl
  have graph := @extMoved_graph _ _ whole fromDir toDir _ inode
    (by simpa [edit.inodeMap] using used)
    (isDirs fromDir (tidy.held.holders fromDir fromName ino bound)) (isDirs toDir toIsDir)
  refine @Tidy.move _ _ _ ino fromDir toDir fromName toName tidy ?_ ?_ ⟨bound, toIsDir, free⟩ above
  · rw [graph, erasedGraph, ← node, DirGraph.apply, moved]
    split
    · rfl
    · rename_i stays
      -- a leaf, or a directory renamed where it is
      rw [DirGraph.setNode_self]
      simp only [ExtVolume.graph, used, ExtInode.node, if_true]
      cases directory : (volume.inode ino).isDir with
      | false => rfl
      | true =>
          have same : fromDir = toDir := by
            by_contra different
            exact stays ⟨kind (isDir_graph used directory), different⟩
          have parent := (@DirGraph.WellHeld.place_eq _ _ _ tidy.held ino (volume.dotdot ino)
            (by simp [ExtVolume.graph, used, ExtInode.node, directory]) (fromDir, fromName) (fromDir, fromName) bound bound).2
          simp [← same, ← parent]
  · rw [(extMoved_fields calls fromDir toDir ino inode _).1]
    exact names_erase addedNames fromDir _

theorem Leaves.node {left : ExtVolume} {replaced : Nat} (leaves : Leaves dir name volume left)
    (bound : volume.graph.bind dir name = some replaced) {other : Nat} (different : other ≠ replaced) :
    left.graph.node other = volume.graph.node other := by
  obtain ⟨ino, after, ⟨again, -, -⟩, graph, -⟩ := leaves
  have same : ino = replaced := Option.some.inj (again.symm.trans bound)
  rw [graph]
  exact Function.update_of_ne (same ▸ different) _ _

theorem extOpRename_edited (whole : calls.Whole) (tidy : volume.Tidy) {fromDir toDir : Nat}
    {fromName toName : Name}
    (above : proper → ∀ ino, volume.graph.bind fromDir fromName = some ino →
      volume.graph.IsDir ino → ¬ volume.graph.Within ino toDir) :
    Edited proper volume (extOpRename config calls volume fromDir fromName toDir toName).2 := by
  rcases extOpRename_cases config calls volume fromDir toDir fromName toName with
    ⟨unchanged, -⟩ | ⟨ino, removes, left, goes⟩
  · rw [unchanged]
    exact tidy.refl
  have source : volume.graph.bind fromDir fromName = some ino :=
    (ext2fsLookup_ok goes.fromLeaf goes.sourceLookup).2
  have toIsDir : volume.graph.IsDir toDir :=
    isDir_graph (extReadValidInode_ok goes.toValid).2.2.1 goes.toIsDir
  rw [goes.moves]
  rcases goes.target with ⟨-, rfl, missing⟩ | ⟨-, replaced, found, different, -, kinds, removed, rfl⟩
  · exact extMoveEntry_edited whole tidy source toIsDir
      (ext2fsLookup_missing goes.toLeaf (whole.lookup .target) missing)
      (fun isDir => (isDir_of_graph isDir).2) (fun proper => above proper ino source) _ _
  · have target : volume.graph.bind toDir toName = some replaced :=
      (ext2fsLookup_ok goes.toLeaf found).2
    have leaves : Leaves toDir toName volume
        (extRemoveTarget config calls volume toDir toName (volume.inode replaced).isDir).2 := by
      unfold extRemoveTarget at removed ⊢
      split
      · rename_i isDir
        rw [if_pos isDir] at removed
        exact extOpRmdir_leaves tidy removed
      · rename_i isFile
        rw [if_neg isFile] at removed
        exact extOpRemove_leaves whole.innerCount tidy removed
    generalize (extRemoveTarget config calls volume toDir toName (volume.inode replaced).isDir).2 =
      left at *
    have edited : Edited proper volume left := leaves.edited tidy
    have node (other : Nat) (apart : other ≠ replaced) := leaves.node target apart
    obtain ⟨again, after, ⟨bound, empty, -⟩, graph, -⟩ := leaves
    have same : again = replaced := Option.some.inj (bound.symm.trans target)
    have apart : ¬ (fromDir = toDir ∧ fromName = toName) := by
      rintro ⟨rfl, rfl⟩
      exact different (Option.some.inj (target.symm.trans source))
    have fewer (place target : Nat) (called : Name)
        (kept : left.graph.bind place called = some target) :
        volume.graph.bind place called = some target := by
      by_cases gone : place = toDir ∧ called = toName
      · rw [gone.1, gone.2, graph, DirGraph.apply, DirGraph.setBind_self] at kept
        cases kept
      · rw [graph, DirGraph.apply, DirGraph.setBind_other _ _ gone] at kept
        exact kept
    have toKept : toDir ≠ replaced := by
      rintro rfl
      rw [same] at empty
      rw [empty toIsDir toName] at target
      cases target
    have isDirs : left.graph.IsDir ino → volume.graph.IsDir ino := by
      rintro ⟨up, known⟩
      exact ⟨up, by rw [← node ino different.symm, known]⟩
    refine edited.trans (extMoveEntry_edited whole edited.tidy ?_ ?_ ?_ ?_ ?_ _ _)
    · rw [graph, DirGraph.apply, DirGraph.setBind_other _ _ apart]
      exact source
    · obtain ⟨up, known⟩ := toIsDir
      exact ⟨up, by rw [node toDir toKept, known]⟩
    · rw [graph, DirGraph.apply, DirGraph.setBind_self]
    · exact fun isDir => (isDir_of_graph (isDirs isDir)).2
    · intro holds isDir within
      exact above holds ino source (isDirs isDir) (within.of_fewer fun place called target =>
        fewer place target called)

end Operations

end Rufux.Mountd
