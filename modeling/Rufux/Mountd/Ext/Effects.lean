import Rufux.Mountd.Ext.Ops

/-!
What each edit of an ext volume leaves alone, as simplification rules, and the library
calls of an operation once none of them fails.
-/

namespace Rufux.Mountd

open Rufux.Library

namespace ExtVolume

variable (volume : ExtVolume)

@[simp] theorem setInode_fields (ino : Nat) (inode : ExtInode) :
    (volume.setInode ino inode).inodesCount = volume.inodesCount ∧
    (volume.setInode ino inode).firstIno = volume.firstIno ∧
    (volume.setInode ino inode).blocksCount = volume.blocksCount ∧
    (volume.setInode ino inode).blockSize = volume.blockSize ∧
    (volume.setInode ino inode).inodeMap = volume.inodeMap ∧
    (volume.setInode ino inode).inode = Function.update volume.inode ino inode ∧
    (volume.setInode ino inode).entries = volume.entries ∧
    (volume.setInode ino inode).dotdot = volume.dotdot ∧
    (volume.setInode ino inode).content = volume.content ∧
    (volume.setInode ino inode).blockMap = volume.blockMap ∧
    (volume.setInode ino inode).durable = volume.durable := by
  simp [setInode]

@[simp] theorem setEntries_fields (dir : Nat) (list : List (DirEntry Name)) :
    (volume.setEntries dir list).inodesCount = volume.inodesCount ∧
    (volume.setEntries dir list).firstIno = volume.firstIno ∧
    (volume.setEntries dir list).blocksCount = volume.blocksCount ∧
    (volume.setEntries dir list).blockSize = volume.blockSize ∧
    (volume.setEntries dir list).inodeMap = volume.inodeMap ∧
    (volume.setEntries dir list).inode = volume.inode ∧
    (volume.setEntries dir list).entries = Function.update volume.entries dir list ∧
    (volume.setEntries dir list).dotdot = volume.dotdot ∧
    (volume.setEntries dir list).content = volume.content ∧
    (volume.setEntries dir list).blockMap = volume.blockMap ∧
    (volume.setEntries dir list).durable = volume.durable := by
  simp [setEntries]

theorem entries_setEntries (dir : Nat) (list : List (DirEntry Name)) :
    (volume.setEntries dir list).entries = Function.update volume.entries dir list := rfl

theorem dotdot_setEntries (dir : Nat) (list : List (DirEntry Name)) :
    (volume.setEntries dir list).dotdot = volume.dotdot := rfl

@[simp] theorem setDotdot_fields (dir parent : Nat) :
    (volume.setDotdot dir parent).inodesCount = volume.inodesCount ∧
    (volume.setDotdot dir parent).firstIno = volume.firstIno ∧
    (volume.setDotdot dir parent).blocksCount = volume.blocksCount ∧
    (volume.setDotdot dir parent).blockSize = volume.blockSize ∧
    (volume.setDotdot dir parent).inodeMap = volume.inodeMap ∧
    (volume.setDotdot dir parent).inode = volume.inode ∧
    (volume.setDotdot dir parent).entries = volume.entries ∧
    (volume.setDotdot dir parent).dotdot = Function.update volume.dotdot dir parent ∧
    (volume.setDotdot dir parent).content = volume.content ∧
    (volume.setDotdot dir parent).blockMap = volume.blockMap ∧
    (volume.setDotdot dir parent).durable = volume.durable := by
  simp [setDotdot]

@[simp] theorem setContent_fields (ino : Nat) (bytes : List UInt8) :
    (volume.setContent ino bytes).inodesCount = volume.inodesCount ∧
    (volume.setContent ino bytes).firstIno = volume.firstIno ∧
    (volume.setContent ino bytes).blocksCount = volume.blocksCount ∧
    (volume.setContent ino bytes).blockSize = volume.blockSize ∧
    (volume.setContent ino bytes).inodeMap = volume.inodeMap ∧
    (volume.setContent ino bytes).inode = volume.inode ∧
    (volume.setContent ino bytes).entries = volume.entries ∧
    (volume.setContent ino bytes).dotdot = volume.dotdot ∧
    (volume.setContent ino bytes).content = Function.update volume.content ino bytes ∧
    (volume.setContent ino bytes).blockMap = volume.blockMap ∧
    (volume.setContent ino bytes).durable = volume.durable := by
  simp [setContent]

@[simp] theorem markInode_fields (ino : Nat) (used : Bool) :
    (volume.markInode ino used).inodesCount = volume.inodesCount ∧
    (volume.markInode ino used).firstIno = volume.firstIno ∧
    (volume.markInode ino used).blocksCount = volume.blocksCount ∧
    (volume.markInode ino used).blockSize = volume.blockSize ∧
    (volume.markInode ino used).inodeMap = Function.update volume.inodeMap ino used ∧
    (volume.markInode ino used).inode = volume.inode ∧
    (volume.markInode ino used).entries = volume.entries ∧
    (volume.markInode ino used).dotdot = volume.dotdot ∧
    (volume.markInode ino used).content = volume.content ∧
    (volume.markInode ino used).blockMap = volume.blockMap ∧
    (volume.markInode ino used).durable = volume.durable := by
  simp [markInode]

@[simp] theorem markBlocks_fields (blocks : List Nat) (used : Bool) :
    (volume.markBlocks blocks used).inodesCount = volume.inodesCount ∧
    (volume.markBlocks blocks used).firstIno = volume.firstIno ∧
    (volume.markBlocks blocks used).blocksCount = volume.blocksCount ∧
    (volume.markBlocks blocks used).blockSize = volume.blockSize ∧
    (volume.markBlocks blocks used).inodeMap = volume.inodeMap ∧
    (volume.markBlocks blocks used).inode = volume.inode ∧
    (volume.markBlocks blocks used).entries = volume.entries ∧
    (volume.markBlocks blocks used).dotdot = volume.dotdot ∧
    (volume.markBlocks blocks used).content = volume.content ∧
    (volume.markBlocks blocks used).durable = volume.durable := by
  simp [markBlocks]

@[simp] theorem claimBlocks_fields (ino : Nat) (proposed : List Nat) :
    (volume.claimBlocks ino proposed).inodesCount = volume.inodesCount ∧
    (volume.claimBlocks ino proposed).firstIno = volume.firstIno ∧
    (volume.claimBlocks ino proposed).blocksCount = volume.blocksCount ∧
    (volume.claimBlocks ino proposed).blockSize = volume.blockSize ∧
    (volume.claimBlocks ino proposed).inodeMap = volume.inodeMap ∧
    (volume.claimBlocks ino proposed).entries = volume.entries ∧
    (volume.claimBlocks ino proposed).dotdot = volume.dotdot ∧
    (volume.claimBlocks ino proposed).content = volume.content ∧
    (volume.claimBlocks ino proposed).durable = volume.durable := by
  simp [claimBlocks]

@[simp] theorem growDir_fields (dir : Nat) (proposed : List Nat) :
    (volume.growDir dir proposed).inodesCount = volume.inodesCount ∧
    (volume.growDir dir proposed).firstIno = volume.firstIno ∧
    (volume.growDir dir proposed).blocksCount = volume.blocksCount ∧
    (volume.growDir dir proposed).blockSize = volume.blockSize ∧
    (volume.growDir dir proposed).inodeMap = volume.inodeMap ∧
    (volume.growDir dir proposed).entries = volume.entries ∧
    (volume.growDir dir proposed).dotdot = volume.dotdot ∧
    (volume.growDir dir proposed).content = volume.content ∧
    (volume.growDir dir proposed).durable = volume.durable := by
  simp [growDir]

@[simp] theorem addEntry_fields (calls : ExtCalls) (dir : Nat) (name : Name) (ino : Nat) :
    (volume.addEntry calls dir name ino).inodesCount = volume.inodesCount ∧
    (volume.addEntry calls dir name ino).firstIno = volume.firstIno ∧
    (volume.addEntry calls dir name ino).blocksCount = volume.blocksCount ∧
    (volume.addEntry calls dir name ino).blockSize = volume.blockSize ∧
    (volume.addEntry calls dir name ino).inodeMap = volume.inodeMap ∧
    (volume.addEntry calls dir name ino).inode = volume.inode ∧
    (volume.addEntry calls dir name ino).entries = Function.update volume.entries dir
      (insertEntry calls.arrange (volume.entries dir) name ino) ∧
    (volume.addEntry calls dir name ino).dotdot = volume.dotdot ∧
    (volume.addEntry calls dir name ino).content = volume.content ∧
    (volume.addEntry calls dir name ino).blockMap = volume.blockMap ∧
    (volume.addEntry calls dir name ino).durable = volume.durable := by
  simp [addEntry]

/-- Blocks that join an inode's map change no more of the inode than that. -/
theorem claimBlocks_inode (ino : Nat) (proposed : List Nat) :
    (volume.claimBlocks ino proposed).inode = Function.update volume.inode ino
      { volume.inode ino with
        iBlock := (volume.inode ino).iBlock ++ volume.freshBlocks proposed
        blocks := (volume.inode ino).blocks +
          (volume.freshBlocks proposed).length * (volume.blockSize / 512) } := by
  simp [claimBlocks]

/-- An edit of the attributes and the data of one inode, which leaves the namespace, the
link counts and every other inode as they were. -/
structure EditsInode (ino : Nat) (before after : ExtVolume) : Prop where
  inodesCount : after.inodesCount = before.inodesCount
  firstIno : after.firstIno = before.firstIno
  blocksCount : after.blocksCount = before.blocksCount
  blockSize : after.blockSize = before.blockSize
  inodeMap : after.inodeMap = before.inodeMap
  entries : after.entries = before.entries
  dotdot : after.dotdot = before.dotdot
  otherInode : ∀ other, other ≠ ino → after.inode other = before.inode other
  otherContent : ∀ other, other ≠ ino → after.content other = before.content other
  format : (after.inode ino).format = (before.inode ino).format
  linksCount : (after.inode ino).linksCount = (before.inode ino).linksCount
  layout : (after.inode ino).layout = (before.inode ino).layout
  fileAcl : (after.inode ino).fileAcl = (before.inode ino).fileAcl

theorem EditsInode.refl (ino : Nat) (volume : ExtVolume) : EditsInode ino volume volume := by
  constructor <;> first | rfl | (intros; rfl)

theorem EditsInode.trans {ino : Nat} {first second third : ExtVolume}
    (left : EditsInode ino first second) (right : EditsInode ino second third) :
    EditsInode ino first third where
  inodesCount := right.inodesCount.trans left.inodesCount
  firstIno := right.firstIno.trans left.firstIno
  blocksCount := right.blocksCount.trans left.blocksCount
  blockSize := right.blockSize.trans left.blockSize
  inodeMap := right.inodeMap.trans left.inodeMap
  entries := right.entries.trans left.entries
  dotdot := right.dotdot.trans left.dotdot
  otherInode other away := (right.otherInode other away).trans (left.otherInode other away)
  otherContent other away := (right.otherContent other away).trans (left.otherContent other away)
  format := right.format.trans left.format
  linksCount := right.linksCount.trans left.linksCount
  layout := right.layout.trans left.layout
  fileAcl := right.fileAcl.trans left.fileAcl

/-- The format and the link count of every inode survive. -/
theorem EditsInode.format_eq {ino : Nat} {before after : ExtVolume}
    (edit : EditsInode ino before after) (other : Nat) :
    (after.inode other).format = (before.inode other).format := by
  by_cases same : other = ino
  · subst other
    exact edit.format
  · rw [edit.otherInode other same]

theorem EditsInode.linksCount_eq {ino : Nat} {before after : ExtVolume}
    (edit : EditsInode ino before after) (other : Nat) :
    (after.inode other).linksCount = (before.inode other).linksCount := by
  by_cases same : other = ino
  · subst other
    exact edit.linksCount
  · rw [edit.otherInode other same]

theorem editsInode_setInode (ino : Nat) (inode : ExtInode)
    (format : inode.format = (volume.inode ino).format)
    (linksCount : inode.linksCount = (volume.inode ino).linksCount)
    (layout : inode.layout = (volume.inode ino).layout)
    (fileAcl : inode.fileAcl = (volume.inode ino).fileAcl) :
    EditsInode ino volume (volume.setInode ino inode) := by
  constructor <;> simp_all

theorem editsInode_setContent (ino : Nat) (bytes : List UInt8) :
    EditsInode ino volume (volume.setContent ino bytes) := by
  constructor <;> simp_all

theorem editsInode_markBlocks (ino : Nat) (blocks : List Nat) (used : Bool) :
    EditsInode ino volume (volume.markBlocks blocks used) := by
  constructor <;> simp

theorem editsInode_claimBlocks (ino : Nat) (proposed : List Nat) :
    EditsInode ino volume (volume.claimBlocks ino proposed) := by
  refine (editsInode_setInode volume ino _ ?_ ?_ ?_ ?_).trans (editsInode_markBlocks _ ino _ true)
    <;> rfl

theorem editsInode_growDir (dir : Nat) (proposed : List Nat) :
    EditsInode dir volume (volume.growDir dir proposed) := by
  refine (editsInode_claimBlocks volume dir proposed).trans (editsInode_setInode _ dir _ ?_ ?_ ?_ ?_)
    <;> rfl

end ExtVolume

open ExtVolume

theorem editsInode_flush (fault : Option Errcode) (volume : ExtVolume) (ino : Nat) :
    EditsInode ino volume (ext2fsFlush fault volume) := by
  cases fault <;> constructor <;> simp [ext2fsFlush]

theorem editsInode_fileWrite (calls : ExtCalls) (turn : Nat) (volume : ExtVolume)
    (ino pos : Nat) (bytes : List UInt8) :
    EditsInode ino volume (ext2fsFileWrite calls turn volume ino pos bytes) := by
  have claimed := editsInode_claimBlocks volume ino (calls.newBlocks (.fileWrite turn))
  refine (claimed.trans (editsInode_setInode _ ino _ ?_ ?_ ?_ ?_)).trans
    (editsInode_setContent _ ino _) <;> rfl

theorem editsInode_setSize (calls : ExtCalls) (volume : ExtVolume) (ino size : Nat) :
    EditsInode ino volume (ext2fsFileSetSize calls volume ino size) := by
  refine ((editsInode_setInode volume ino _ ?_ ?_ ?_ ?_).trans
    (editsInode_setContent _ ino _)).trans (editsInode_markBlocks _ ino _ false) <;> rfl

theorem editsInode_touchDir (calls : ExtCalls) (role : Role) (volume : ExtVolume) (dir : Nat) :
    EditsInode dir volume (extTouchDir calls role volume dir) := by
  unfold extTouchDir ext2fsReadInode ext2fsWriteInode
  cases calls.fault (.readInode role) with
  | some code => exact EditsInode.refl dir volume
  | none =>
      cases calls.fault (.writeInode role) with
      | some code => exact EditsInode.refl dir volume
      | none => exact editsInode_setInode volume dir _ rfl rfl rfl rfl

theorem extApplySattrMeta_fields (now : Nat) (inode : ExtInode) (sattr : SAttr3) :
    (extApplySattrMeta now inode sattr).format = inode.format ∧
    (extApplySattrMeta now inode sattr).linksCount = inode.linksCount ∧
    (extApplySattrMeta now inode sattr).layout = inode.layout ∧
    (extApplySattrMeta now inode sattr).fileAcl = inode.fileAcl ∧
    (extApplySattrMeta now inode sattr).iBlock = inode.iBlock ∧
    (extApplySattrMeta now inode sattr).size = inode.size :=
  ⟨rfl, rfl, rfl, rfl, rfl, rfl⟩

theorem editsInode_setattrMeta (config : Config) (calls : ExtCalls) (volume : ExtVolume)
    (ino : Nat) (inode : ExtInode) (sattr : SAttr3)
    (format : inode.format = (volume.inode ino).format)
    (linksCount : inode.linksCount = (volume.inode ino).linksCount)
    (layout : inode.layout = (volume.inode ino).layout)
    (fileAcl : inode.fileAcl = (volume.inode ino).fileAcl) :
    EditsInode ino volume (extSetattrMeta config calls volume ino inode sattr).2 := by
  unfold extSetattrMeta
  cases calls.fault (.writeInode .child) with
  | some code => exact EditsInode.refl ino volume
  | none => exact editsInode_setInode volume ino _ format linksCount layout fileAcl

/-- What a successful check of an inode number says about it. -/
theorem extReadValidInode_ok {fault : Option Errcode} {volume : ExtVolume} {ino : Nat}
    {inode : ExtInode} (valid : extReadValidInode fault volume ino = .ok inode) :
    extRootIno ≤ ino ∧ ino ≤ volume.inodesCount ∧ volume.inodeMap ino = true ∧
      inode = volume.inode ino ∧ inode.linksCount ≠ 0 ∧ fault = none := by
  unfold extReadValidInode ext2fsReadInode at valid
  split at valid
  · cases valid
  · split at valid
    · cases valid
    · cases fault with
      | some code => cases valid
      | none =>
          simp only at valid
          split at valid
          · cases valid
          · cases valid
            refine ⟨by omega, by omega, ?_, rfl, ?_, rfl⟩ <;> simp_all

theorem extReadValidInode_error_ne_ok {fault : Option Errcode} {volume : ExtVolume} {ino : Nat}
    {status : Nfsstat} (invalid : extReadValidInode fault volume ino = .error status) :
    status ≠ .ok := by
  unfold extReadValidInode ext2fsReadInode at invalid
  split at invalid
  · cases invalid
    decide
  · split at invalid
    · cases invalid
      decide
    · cases fault with
      | some code =>
          cases invalid
          exact extErrToNfs3_ne_ok code
      | none =>
          simp only at invalid
          split at invalid
          · cases invalid
            decide
          · cases invalid

theorem extReadValidInode_of_valid {volume : ExtVolume} {ino : Nat} (lower : extRootIno ≤ ino)
    (upper : ino ≤ volume.inodesCount) (used : volume.inodeMap ino = true)
    (linked : (volume.inode ino).linksCount ≠ 0) :
    extReadValidInode none volume ino = .ok (volume.inode ino) := by
  unfold extReadValidInode ext2fsReadInode
  rw [if_neg (by omega), if_neg (by simp [used])]
  simp [linked]

theorem editsInode_opSetattr (config : Config) (calls : ExtCalls) (volume : ExtVolume)
    (ino : Nat) (sattr : SAttr3) :
    EditsInode ino volume (extOpSetattr config calls volume ino sattr).2 := by
  unfold extOpSetattr
  cases valid : extReadValidInode (calls.fault (.readValid .child)) volume ino with
  | error status => exact EditsInode.refl ino volume
  | ok inode =>
      obtain ⟨-, -, -, rfl, -, -⟩ := extReadValidInode_ok valid
      cases sattr.size with
      | none => exact editsInode_setattrMeta config calls volume ino _ sattr rfl rfl rfl rfl
      | some size =>
          have sized := editsInode_setSize calls volume ino size
          simp only
          split
          · exact EditsInode.refl ino volume
          split
          · exact EditsInode.refl ino volume
          split
          · exact EditsInode.refl ino volume
          split
          · exact EditsInode.refl ino volume
          split
          · exact sized
          unfold ext2fsReadInode
          cases calls.fault (.readInode .child) with
          | some code => exact sized
          | none => exact sized.trans (editsInode_setattrMeta config calls _ ino _ sattr rfl rfl rfl rfl)

theorem editsInode_writeLoop (calls : ExtCalls) (ino fuel turn pos : Nat) (data : List UInt8)
    (volume : ExtVolume) :
    EditsInode ino volume (extWriteLoop calls ino fuel turn pos data volume).2 := by
  induction fuel generalizing turn pos data volume with
  | zero => exact EditsInode.refl ino volume
  | succ fuel ih =>
      have wrote := editsInode_fileWrite calls turn volume ino pos (data.take (calls.chunk turn))
      rw [extWriteLoop]
      split
      · exact EditsInode.refl ino volume
      · simp only
        split
        · exact wrote
        · split
          · exact wrote
          · exact wrote.trans (ih _ _ _ _)

theorem editsInode_finishWrite (config : Config) (calls : ExtCalls) (volume : ExtVolume)
    (ino : Nat) (stable : StableHow) :
    EditsInode ino volume (extFinishWrite config calls volume ino stable).2 := by
  have finished {stamped : ExtVolume} (edits : EditsInode ino volume stamped) :
      EditsInode ino volume
        (if stable = .unstable then stamped else ext2fsFlush (calls.fault .flush) stamped) := by
    split
    · exact edits
    · exact edits.trans (editsInode_flush _ _ ino)
  unfold extFinishWrite ext2fsReadInode ext2fsWriteInode
  cases calls.fault (.readInode .post) with
  | some code => exact finished (EditsInode.refl ino volume)
  | none =>
      cases calls.fault (.writeInode .post) with
      | some code => exact finished (EditsInode.refl ino volume)
      | none => exact finished (editsInode_setInode volume ino _ rfl rfl rfl rfl)

theorem editsInode_opWrite (config : Config) (calls : ExtCalls) (volume : ExtVolume)
    (ino offset : Nat) (data : List UInt8) (stable : StableHow) :
    EditsInode ino volume (extOpWrite config calls volume ino offset data stable).2 := by
  have looped := editsInode_writeLoop calls ino data.length 0 offset data volume
  unfold extOpWrite
  split
  · exact EditsInode.refl ino volume
  simp only
  split
  · exact EditsInode.refl ino volume
  split
  · exact EditsInode.refl ino volume
  split
  · exact EditsInode.refl ino volume
  split
  · exact EditsInode.refl ino volume
  split
  · rename_i stopped
    rw [stopped] at looped
    exact looped
  · rename_i written finished
    rw [finished] at looped
    split
    · exact looped
    split
    · exact looped
    · exact looped.trans (editsInode_finishWrite config calls written ino stable)

theorem editsInode_opCommit (config : Config) (calls : ExtCalls) (volume : ExtVolume) (ino : Nat) :
    EditsInode ino volume (extOpCommit config calls volume ino).2 := by
  unfold extOpCommit
  split
  · exact .refl ino volume
  split
  · exact .refl ino volume
  split
  · exact .refl ino volume
  simp only
  split
  · exact editsInode_flush none volume ino
  · exact editsInode_flush none volume ino

end Rufux.Mountd
