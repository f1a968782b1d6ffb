import Rufux.Mountd.Ext.Cases

/-!
What the ext operations leave alone, whatever call fails: a set of inodes that neither the
handles of a request nor the directory entries lead to.
-/

namespace Rufux.Mountd

open Rufux.Library ExtVolume

/-- The inodes of a set keep all they hold, and no entry comes to refer to one. -/
structure ExtVolume.Spares (reserved : Nat → Prop) (before after : ExtVolume) : Prop where
  inodesCount : after.inodesCount = before.inodesCount
  firstIno : after.firstIno = before.firstIno
  inode : ∀ ino, reserved ino → after.inode ino = before.inode ino
  inodeMap : ∀ ino, reserved ino → after.inodeMap ino = before.inodeMap ino
  content : ∀ ino, reserved ino → after.content ino = before.content ino
  entries : ∀ ino, reserved ino → after.entries ino = before.entries ino
  dotdot : ∀ ino, reserved ino → after.dotdot ino = before.dotdot ino
  gained : ∀ dir entry, entry ∈ after.entries dir → reserved entry.ino →
    entry ∈ before.entries dir

/-- No directory entry refers to an inode of the set. -/
def ExtVolume.Unlinked (reserved : Nat → Prop) (volume : ExtVolume) : Prop :=
  ∀ dir, ∀ entry ∈ volume.entries dir, ¬ reserved entry.ino

/-- New inodes are outside the set. -/
def ExtVolume.Fresh (reserved : Nat → Prop) (volume : ExtVolume) : Prop :=
  ∀ ino, extRootIno < ino → volume.firstIno ≤ ino → ¬ reserved ino

section Spares

variable {reserved : Nat → Prop} {before after : ExtVolume}

theorem ExtVolume.Spares.refl (volume : ExtVolume) : Spares reserved volume volume := by
  constructor <;> intros <;> first | rfl | assumption

theorem ExtVolume.Spares.trans {first second third : ExtVolume}
    (left : Spares reserved first second) (right : Spares reserved second third) :
    Spares reserved first third where
  inodesCount := right.inodesCount.trans left.inodesCount
  firstIno := right.firstIno.trans left.firstIno
  inode ino kept := (right.inode ino kept).trans (left.inode ino kept)
  inodeMap ino kept := (right.inodeMap ino kept).trans (left.inodeMap ino kept)
  content ino kept := (right.content ino kept).trans (left.content ino kept)
  entries ino kept := (right.entries ino kept).trans (left.entries ino kept)
  dotdot ino kept := (right.dotdot ino kept).trans (left.dotdot ino kept)
  gained dir entry present kept := left.gained dir entry (right.gained dir entry present kept) kept

theorem ExtVolume.Spares.unlinked (spares : Spares reserved before after)
    (unlinked : before.Unlinked reserved) : after.Unlinked reserved := by
  intro dir entry present kept
  exact unlinked dir entry (spares.gained dir entry present kept) kept

theorem ExtVolume.Spares.fresh (spares : Spares reserved before after)
    (fresh : before.Fresh reserved) : after.Fresh reserved := by
  intro ino above first
  rw [spares.firstIno] at first
  exact fresh ino above first

theorem ExtVolume.EditsInode.spares {ino : Nat} (edit : EditsInode ino before after)
    (outside : ¬ reserved ino) : Spares reserved before after where
  inodesCount := edit.inodesCount
  firstIno := edit.firstIno
  inode other kept := edit.otherInode other fun same => outside (same ▸ kept)
  inodeMap other _ := congrFun edit.inodeMap other
  content other kept := edit.otherContent other fun same => outside (same ▸ kept)
  entries other _ := congrFun edit.entries other
  dotdot other _ := congrFun edit.dotdot other
  gained dir entry present _ := by
    rw [edit.entries] at present
    exact present

theorem update_spared {α : Type} {reserved : Nat → Prop} {ino : Nat} (outside : ¬ reserved ino)
    (map : Nat → α) (value : α) (other : Nat) (kept : reserved other) :
    Function.update map ino value other = map other :=
  Function.update_of_ne (fun same : other = ino => outside (same ▸ kept)) _ _

variable {volume : ExtVolume} {ino : Nat}

theorem spares_setInode (outside : ¬ reserved ino) (inode : ExtInode) :
    Spares reserved volume (volume.setInode ino inode) := by
  constructor <;> intros <;> first | rfl | assumption | exact update_spared outside _ _ _ ‹_›

theorem spares_setContent (outside : ¬ reserved ino) (bytes : List UInt8) :
    Spares reserved volume (volume.setContent ino bytes) := by
  constructor <;> intros <;> first | rfl | assumption | exact update_spared outside _ _ _ ‹_›

theorem spares_markInode (outside : ¬ reserved ino) (used : Bool) :
    Spares reserved volume (volume.markInode ino used) := by
  constructor <;> intros <;> first | rfl | assumption | exact update_spared outside _ _ _ ‹_›

theorem spares_setDotdot (outside : ¬ reserved ino) (parent : Nat) :
    Spares reserved volume (volume.setDotdot ino parent) := by
  constructor <;> intros <;> first | rfl | assumption | exact update_spared outside _ _ _ ‹_›

theorem spares_markBlocks (blocks : List Nat) (used : Bool) :
    Spares reserved volume (volume.markBlocks blocks used) := by
  constructor <;> intros <;> first | rfl | assumption

/-- A directory outside the set may change its entries if it gains none into the set. -/
theorem spares_setEntries {dir : Nat} (outside : ¬ reserved dir) {list : List (DirEntry Name)}
    (gained : ∀ entry ∈ list, reserved entry.ino → entry ∈ volume.entries dir) :
    Spares reserved volume (volume.setEntries dir list) := by
  constructor <;> intros <;> try first | rfl | exact update_spared outside _ _ _ ‹_›
  rename_i other entry present kept
  rw [entries_setEntries] at present
  by_cases same : other = dir
  · subst same
    rw [Function.update_self] at present
    exact gained entry present kept
  · rw [Function.update_of_ne same] at present
    exact present

theorem spares_addEntry {dir : Nat} (calls : ExtCalls) (outside : ¬ reserved dir) (name : Name)
    (target : ¬ reserved ino) : Spares reserved volume (volume.addEntry calls dir name ino) := by
  refine spares_setEntries outside ?_
  intro entry present kept
  rcases mem_insertEntry.mp present with rfl | old
  · exact absurd kept target
  · exact old

theorem spares_eraseEntry {dir : Nat} (outside : ¬ reserved dir) (gone : DirEntry Name) :
    Spares reserved volume (volume.setEntries dir ((volume.entries dir).erase gone)) :=
  spares_setEntries outside fun _ present _ => List.mem_of_mem_erase present

theorem spares_growDir {dir : Nat} (outside : ¬ reserved dir) (proposed : List Nat) :
    Spares reserved volume (volume.growDir dir proposed) :=
  (editsInode_growDir volume dir proposed).spares outside

theorem spares_claimBlocks (outside : ¬ reserved ino) (proposed : List Nat) :
    Spares reserved volume (volume.claimBlocks ino proposed) :=
  (editsInode_claimBlocks volume ino proposed).spares outside

theorem spares_writeInode (fault : Option Errcode) (outside : ¬ reserved ino) (inode : ExtInode) :
    Spares reserved volume (ext2fsWriteInode fault volume ino inode) := by
  cases fault with
  | some code => exact .refl volume
  | none => exact spares_setInode outside inode

theorem spares_punch (fault : Option Errcode) (outside : ¬ reserved ino) (inode : ExtInode) :
    Spares reserved volume (ext2fsPunch fault volume ino inode).2 := by
  cases fault with
  | some code => exact .refl volume
  | none =>
      exact ((spares_setInode outside _).trans (spares_setContent outside _)).trans
        (spares_markBlocks _ _)

theorem spares_touchDir (calls : ExtCalls) (role : Role) (outside : ¬ reserved ino) :
    Spares reserved volume (extTouchDir calls role volume ino) :=
  (editsInode_touchDir calls role volume ino).spares outside

end Spares

section Operations

variable {reserved : Nat → Prop} {volume : ExtVolume} {dir : Nat}

theorem spares_linkWithExpand (calls : ExtCalls) (role : Role) (outside : ¬ reserved dir)
    (name : Name) {target : Nat} (allowed : ¬ reserved target) :
    Spares reserved volume (extLinkWithExpand calls role volume dir name target).2 := by
  obtain ⟨grown, edit, ⟨code, failed⟩ | linked⟩ :=
    extLinkWithExpand_cases calls role volume dir name target
  · rw [failed]
    exact edit.spares outside
  · rw [linked]
    exact (edit.spares outside).trans (spares_addEntry calls outside name allowed)

theorem spares_undoCreate (config : Config) (calls : ExtCalls) {ino : Nat}
    (allowed : ¬ reserved ino) (nin : ExtInode) (pre : WccPre) (code : Errcode) :
    Spares reserved volume (extUndoCreate config calls volume dir ino nin pre code).2 :=
  (spares_writeInode _ allowed _).trans (spares_markInode allowed _)

theorem spares_createNew (config : Config) (calls : ExtCalls) (fresh : volume.Fresh reserved)
    (outside : ¬ reserved dir) (name : Name) (dirAttr : NfsAttr) (sattr : Option SAttr3) :
    Spares reserved volume (extCreateNew config calls volume dir name dirAttr sattr).2 := by
  unfold extCreateNew
  split
  · exact .refl volume
  rename_i ino created
  obtain ⟨-, above, first, -, -, -⟩ := ext2fsNewInode_ok created
  have allowed := fresh ino above first
  have marked : Spares reserved volume (volume.markInode ino true) := spares_markInode allowed true
  split
  · exact marked.trans (spares_undoCreate config calls allowed _ _ _)
  have written := (marked.trans (spares_setInode allowed (newRegInode config calls.now sattr))).trans
    (spares_setContent allowed [])
  have linkStep := written.trans (spares_linkWithExpand calls .dir outside name allowed)
  simp only
  split
  · rename_i code expanded failed
    rw [failed] at linkStep
    exact linkStep.trans (spares_undoCreate config calls allowed _ _ _)
  rename_i linked linkDone
  rw [linkDone] at linkStep
  have touched := linkStep.trans (spares_touchDir calls .dir outside)
  split
  · split
    · exact touched.trans ((editsInode_opSetattr config calls.inner _ ino _).spares allowed)
    · exact touched
  · exact touched

theorem spares_opCreate (config : Config) (calls : ExtCalls) (fresh : volume.Fresh reserved)
    (unlinked : volume.Unlinked reserved) (outside : ¬ reserved dir) (name : Name)
    (mode : CreateMode) (sattr : Option SAttr3) :
    Spares reserved volume (extOpCreate config calls volume dir name mode sattr).2 := by
  unfold extOpCreate
  split
  · exact .refl volume
  simp only
  split
  · exact .refl volume
  split
  · exact .refl volume
  rename_i legal
  split
  · exact .refl volume
  split
  · rename_i existing found
    have entry := findEntry_mem (ext2fsLookup_ok (by simpa using legal) found).2
    have allowed := unlinked dir _ entry
    split
    · exact .refl volume
    · unfold extCreateExisting
      cases sattr with
      | none => exact .refl volume
      | some settings =>
          exact (editsInode_opSetattr config calls.inner volume existing settings).spares allowed
  · exact spares_createNew config calls fresh outside name _ sattr

theorem spares_mkdir2 {calls : ExtCalls} {site : ExtSite} {name : Name} {made : Nat × ExtVolume}
    (fresh : volume.Fresh reserved) (outside : ¬ reserved dir)
    (created : ext2fsMkdir2 calls site volume dir name = .ok made) :
    ¬ reserved made.1 ∧ Spares reserved volume made.2 := by
  unfold ext2fsMkdir2 at created
  split at created
  · cases created
  rename_i ino new
  obtain ⟨-, above, first, -, -, -⟩ := ext2fsNewInode_ok new
  have allowed := fresh ino above first
  split at created
  · cases created
  cases created
  refine ⟨allowed, ?_⟩
  have claimed := ((@spares_setInode _ volume) allowed (newDirInode calls volume)).trans
    (spares_claimBlocks allowed ((calls.newBlocks site).take 1))
  have named := (claimed.trans (spares_setDotdot allowed dir)).trans (spares_markInode allowed true)
  have emptied := named.trans (spares_setEntries allowed
    fun entry (present : entry ∈ ([] : List (DirEntry Name))) _ => absurd present List.not_mem_nil)
  have grown := emptied.trans (spares_growDir outside ((calls.newBlocks site).drop 1))
  exact (grown.trans (spares_addEntry calls outside name allowed)).trans (spares_setInode outside _)

theorem spares_mkdirWithExpand (calls : ExtCalls) (fresh : volume.Fresh reserved)
    (outside : ¬ reserved dir) (name : Name) :
    Spares reserved volume (extMkdirWithExpand calls volume dir name).2 ∧
      ∀ ino, (extMkdirWithExpand calls volume dir name).1 = .ok ino → ¬ reserved ino := by
  unfold extMkdirWithExpand
  split
  · rename_i made created
    obtain ⟨allowed, spares⟩ := spares_mkdir2 fresh outside created
    refine ⟨spares, fun ino same => ?_⟩
    cases same
    exact allowed
  split
  · split
    · exact ⟨.refl volume, fun ino same => nomatch same⟩
    have grown : Spares reserved volume
        (volume.growDir dir (calls.newBlocks (.expandDir .dir))) := spares_growDir outside _
    simp only
    split
    · rename_i made created
      obtain ⟨allowed, spares⟩ := spares_mkdir2 (grown.fresh fresh) outside created
      refine ⟨grown.trans spares, fun ino same => ?_⟩
      cases same
      exact allowed
    · exact ⟨grown, fun ino same => nomatch same⟩
  · exact ⟨.refl volume, fun ino same => nomatch same⟩

theorem spares_opMkdir (config : Config) (calls : ExtCalls) (fresh : volume.Fresh reserved)
    (outside : ¬ reserved dir) (name : Name) (sattr : Option SAttr3) :
    Spares reserved volume (extOpMkdir config calls volume dir name sattr).2 := by
  obtain ⟨spares, allowed⟩ := spares_mkdirWithExpand calls fresh outside name
  unfold extOpMkdir
  split
  · exact .refl volume
  simp only
  split
  · exact .refl volume
  split
  · exact .refl volume
  split
  · exact .refl volume
  split
  · exact .refl volume
  split
  · rename_i code left failed
    rw [failed] at spares
    exact spares
  rename_i ino made created
  rw [created] at spares allowed
  have new := allowed ino rfl
  simp only
  split
  · exact spares.trans (spares_touchDir calls .dir outside)
  · exact (spares.trans (spares_writeInode _ new _)).trans (spares_touchDir calls .dir outside)

theorem spares_symlink {calls : ExtCalls} {site : ExtSite} {name target : Name} {made : ExtVolume}
    (fresh : volume.Fresh reserved) (outside : ¬ reserved dir)
    (created : ext2fsSymlink calls site volume dir name target = .ok made) :
    Spares reserved volume made := by
  unfold ext2fsSymlink at created
  split at created
  · cases created
  split at created
  · cases created
  rename_i ino new
  obtain ⟨-, above, first, -, -, -⟩ := ext2fsNewInode_ok new
  have allowed := fresh ino above first
  split at created
  · cases created
  cases created
  have written : Spares reserved volume (volume.setInode ino (newSymlinkInode calls target)) :=
    spares_setInode allowed _
  have stored : Spares reserved volume
      (if target.length < 60 then volume.setInode ino (newSymlinkInode calls target)
        else ((volume.setInode ino (newSymlinkInode calls target)).claimBlocks ino
          ((calls.newBlocks site).take 1)).setContent ino target) := by
    split
    · exact written
    · exact (written.trans (spares_claimBlocks allowed _)).trans (spares_setContent allowed _)
  exact ((stored.trans (spares_markInode allowed true)).trans (spares_growDir outside _)).trans
    (spares_addEntry calls outside name allowed)

theorem spares_symlinkWithExpand (calls : ExtCalls) (fresh : volume.Fresh reserved)
    (outside : ¬ reserved dir) (name target : Name) :
    Spares reserved volume (extSymlinkWithExpand calls volume dir name target).2 := by
  unfold extSymlinkWithExpand
  split
  · rename_i made created
    exact spares_symlink fresh outside created
  split
  · split
    · exact .refl volume
    have grown : Spares reserved volume
        (volume.growDir dir (calls.newBlocks (.expandDir .dir))) := spares_growDir outside _
    simp only
    split
    · rename_i made created
      exact grown.trans (spares_symlink (grown.fresh fresh) outside created)
    · exact grown
  · exact .refl volume

theorem spares_opSymlink (config : Config) (calls : ExtCalls) (fresh : volume.Fresh reserved)
    (unlinked : volume.Unlinked reserved) (outside : ¬ reserved dir) (name : Name)
    (sattr : Option SAttr3) (target : Name) :
    Spares reserved volume (extOpSymlink config calls volume dir name sattr target).2 := by
  have spares := spares_symlinkWithExpand calls fresh outside name target
  unfold extOpSymlink
  split
  · exact .refl volume
  split
  · exact .refl volume
  simp only
  split
  · exact .refl volume
  split
  · exact .refl volume
  rename_i legal
  split
  · exact .refl volume
  split
  · exact .refl volume
  split
  · rename_i code left failed
    rw [failed] at spares
    exact spares
  rename_i made created
  rw [created] at spares
  split
  · exact spares
  rename_i ino found
  have entry := findEntry_mem (ext2fsLookup_ok (by simpa using legal) found).2
  have allowed := spares.unlinked unlinked dir _ entry
  split
  · exact spares.trans (spares_touchDir calls .dir outside)
  · exact (spares.trans (spares_writeInode _ allowed _)).trans (spares_touchDir calls .dir outside)

theorem spares_dropLink (calls : ExtCalls) {ino : Nat} (allowed : ¬ reserved ino)
    (inode : ExtInode) : Spares reserved volume (extDropLink calls volume ino inode) := by
  unfold extDropLink
  split
  · exact spares_writeInode _ allowed _
  · simp only
    split
    · exact ((spares_punch _ allowed inode).trans (spares_writeInode _ allowed _)).trans
        (spares_markInode allowed false)
    · exact (spares_writeInode _ allowed _).trans (spares_markInode allowed false)

theorem spares_opRemove (config : Config) (calls : ExtCalls) (unlinked : volume.Unlinked reserved)
    (outside : ¬ reserved dir) (name : Name) :
    Spares reserved volume (extOpRemove config calls volume dir name).2 := by
  by_cases succeeded : (extOpRemove config calls volume dir name).1.status = .ok
  · obtain ⟨ino, -, -, -, -, -, found, after⟩ := extOpRemove_ok_cases succeeded
    have allowed := unlinked dir _ (findEntry_mem found)
    rw [after]
    exact ((spares_eraseEntry outside _).trans (spares_dropLink calls allowed _)).trans
      (spares_touchDir calls .dir outside)
  · rw [extOpRemove_refused succeeded]
    exact .refl volume

theorem spares_releaseDir (calls : ExtCalls) {ino : Nat} (outside : ¬ reserved dir)
    (allowed : ¬ reserved ino) (inode : ExtInode) :
    Spares reserved volume (extReleaseDir calls volume dir ino inode) := by
  have released := (((@spares_punch _ volume) (calls.fault .punch) allowed inode).trans
    (spares_writeInode (calls.fault (.writeInode .child)) allowed
      (releasedInode calls.now (ext2fsPunch (calls.fault .punch) volume ino inode).1))).trans
        (spares_markInode allowed false)
  unfold extReleaseDir
  simp only
  split
  · exact released
  · exact released.trans (spares_writeInode _ outside _)

theorem spares_opRmdir (config : Config) (calls : ExtCalls) (unlinked : volume.Unlinked reserved)
    (outside : ¬ reserved dir) (name : Name) :
    Spares reserved volume (extOpRmdir config calls volume dir name).2 := by
  by_cases succeeded : (extOpRmdir config calls volume dir name).1.status = .ok
  · obtain ⟨ino, -, -, -, -, -, -, -, found, after⟩ := extOpRmdir_ok_cases succeeded
    have allowed := unlinked dir _ (findEntry_mem found)
    rw [after]
    exact (spares_eraseEntry outside _).trans (spares_releaseDir calls outside allowed _)
  · rw [extOpRmdir_refused succeeded]
    exact .refl volume

theorem spares_reparent (calls : ExtCalls) {fromDir toDir ino : Nat} (fromOutside : ¬ reserved fromDir)
    (toOutside : ¬ reserved toDir) (allowed : ¬ reserved ino) (inode : ExtInode) :
    Spares reserved volume (extReparent calls volume fromDir toDir ino inode) := by
  have counts (start : ExtVolume) :
      Spares reserved start (extMoveDirCounts calls start fromDir toDir) := by
    unfold extMoveDirCounts ext2fsReadInode
    cases calls.fault (.readInode .fromDir) <;> cases calls.fault (.readInode .toDir) <;> simp only
    · exact (spares_writeInode _ fromOutside _).trans (spares_writeInode _ toOutside _)
    · exact spares_writeInode _ fromOutside _
    · exact spares_writeInode _ toOutside _
    · exact .refl start
  unfold extReparent
  split
  · simp only
    split
    · exact counts volume
    · exact (spares_setDotdot allowed toDir).trans (counts _)
  · exact .refl volume

theorem spares_moveEntry (config : Config) (calls : ExtCalls) {fromDir toDir ino : Nat}
    (fromOutside : ¬ reserved fromDir) (toOutside : ¬ reserved toDir) (allowed : ¬ reserved ino)
    (fromName toName : Name) (inode : ExtInode) (fromPre toPre : WccPre) :
    Spares reserved volume (extMoveEntry config calls volume fromDir fromName toDir toName ino inode
      fromPre toPre).2 := by
  have linkStep : Spares reserved volume
      (extLinkWithExpand calls .target volume toDir toName ino).2 :=
    spares_linkWithExpand calls .target toOutside toName allowed
  unfold extMoveEntry
  simp only
  split
  · rename_i code left failed
    rw [failed] at linkStep
    exact linkStep
  rename_i linked linkDone
  rw [linkDone] at linkStep
  split
  · rename_i code left failed
    unfold ext2fsUnlink at failed
    split at failed
    · cases failed
      exact linkStep
    · split at failed
      · cases failed
      · cases failed
        exact linkStep
  rename_i unlinked removed
  obtain ⟨-, -, rfl⟩ := ext2fsUnlink_ok removed
  have moved := ((linkStep.trans (spares_eraseEntry fromOutside ⟨fromName, ino⟩)).trans
    (spares_reparent calls fromOutside toOutside allowed inode)).trans
      (spares_touchDir calls .touchFrom fromOutside)
  simp only
  split
  · exact moved.trans (spares_touchDir calls .touchTo toOutside)
  · exact moved

theorem spares_opRename (config : Config) (calls : ExtCalls) (unlinked : volume.Unlinked reserved)
    {fromDir toDir : Nat} (fromOutside : ¬ reserved fromDir) (toOutside : ¬ reserved toDir)
    (fromName toName : Name) :
    Spares reserved volume (extOpRename config calls volume fromDir fromName toDir toName).2 := by
  rcases extOpRename_cases config calls volume fromDir toDir fromName toName with
    ⟨unchanged, -⟩ | ⟨ino, removes, left, goes⟩
  · rw [unchanged]
    exact .refl volume
  · have source := (ext2fsLookup_ok goes.fromLeaf goes.sourceLookup).2
    have allowed := unlinked fromDir _ (findEntry_mem source)
    rw [goes.moves]
    have cleared : Spares reserved volume left := by
      rcases goes.target with ⟨-, rfl, -⟩ | ⟨-, replaced, -, -, -, -, -, rfl⟩
      · exact .refl left
      · unfold extRemoveTarget
        split
        · exact spares_opRmdir config calls.inner unlinked toOutside toName
        · exact spares_opRemove config calls.inner unlinked toOutside toName
    exact cleared.trans (spares_moveEntry config calls fromOutside toOutside allowed fromName toName
      _ _ _)

theorem spares_opLink (config : Config) (calls : ExtCalls) (outside : ¬ reserved dir) {ino : Nat}
    (allowed : ¬ reserved ino) (name : Name) :
    Spares reserved volume (extOpLink config calls volume ino dir name).2 := by
  have linkStep : Spares reserved volume (extLinkWithExpand calls .dir volume dir name ino).2 :=
    spares_linkWithExpand calls .dir outside name allowed
  unfold extOpLink
  split
  · exact .refl volume
  simp only
  split
  · exact .refl volume
  split
  · exact .refl volume
  split
  · exact .refl volume
  split
  · exact .refl volume
  split
  · exact .refl volume
  split
  · exact .refl volume
  split
  · rename_i code left failed
    rw [failed] at linkStep
    exact linkStep
  · rename_i linked linkDone
    rw [linkDone] at linkStep
    exact (linkStep.trans (spares_writeInode _ allowed _)).trans (spares_touchDir calls .dir outside)

theorem spares_flush (fault : Option Errcode) : Spares reserved volume (ext2fsFlush fault volume) := by
  cases fault <;> constructor <;> intros <;> first | rfl | assumption

theorem spares_opCommit (config : Config) (calls : ExtCalls) (ino : Nat) :
    Spares reserved volume (extOpCommit config calls volume ino).2 := by
  unfold extOpCommit
  split
  · exact .refl volume
  split
  · exact .refl volume
  split
  · exact .refl volume
  simp only
  split <;> exact spares_flush none

end Operations

end Rufux.Mountd
