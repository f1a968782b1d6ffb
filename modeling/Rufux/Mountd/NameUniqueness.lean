import Rufux.Library.Run
import Rufux.Mountd.Ext.Cases
import Rufux.Mountd.Objects
import Rufux.Mountd.RenameAtomic

/-!
No directory of an ext volume holds a name twice, whichever libext2fs calls fail, unless a
failing look-up is taken for a missing name. `ext2fs_link` does not look for the name itself.
-/

namespace Rufux.Mountd

open Rufux.Library ExtVolume

def ExtVolume.NamesUnique (volume : ExtVolume) : Prop := ∀ dir, UniqueNames (volume.entries dir)

section Operations

variable {config : Config} {calls : ExtCalls} {volume : ExtVolume} {dir : Nat} {name : Name}

theorem ExtVolume.NamesUnique.of_entries {after : ExtVolume} (unique : volume.NamesUnique)
    (same : after.entries = volume.entries) : after.NamesUnique := by
  intro place
  rw [same]
  exact unique place

theorem ExtVolume.NamesUnique.setEntries {ino : Nat} {list : List (DirEntry Name)}
    (unique : volume.NamesUnique) (listed : UniqueNames list) :
    (volume.setEntries ino list).NamesUnique := by
  intro place
  rw [entries_setEntries]
  by_cases here : place = ino
  · rw [here, Function.update_self]
    exact listed
  · rw [Function.update_of_ne here]
    exact unique place

theorem ExtVolume.NamesUnique.add {grown : ExtVolume} (unique : volume.NamesUnique)
    (same : grown.entries = volume.entries) (free : findEntry (volume.entries dir) name = none)
    (ino : Nat) : (grown.addEntry calls dir name ino).NamesUnique := by
  intro place
  rw [show (grown.addEntry calls dir name ino).entries = Function.update grown.entries dir
    (insertEntry calls.arrange (grown.entries dir) name ino) by simp, same]
  by_cases here : place = dir
  · rw [here, Function.update_self]
    exact (unique dir).insertEntry calls.arrange free ino
  · rw [Function.update_of_ne here]
    exact unique place

theorem ExtVolume.NamesUnique.erase {after : ExtVolume} {entry : DirEntry Name}
    (unique : volume.NamesUnique)
    (same : after.entries = Function.update volume.entries dir ((volume.entries dir).erase entry)) :
    after.NamesUnique := by
  intro place
  rw [same]
  by_cases here : place = dir
  · rw [here, Function.update_self]
    exact (unique dir).erase entry
  · rw [Function.update_of_ne here]
    exact unique place

theorem extLinkWithExpand_unique (unique : volume.NamesUnique) (role : Role)
    (free : findEntry (volume.entries dir) name = none) (ino : Nat) :
    (extLinkWithExpand calls role volume dir name ino).2.NamesUnique := by
  obtain ⟨grown, edit, ⟨code, failed⟩ | linked⟩ :=
    extLinkWithExpand_cases calls role volume dir name ino
  · rw [failed]
    exact unique.of_entries edit.entries
  · rw [linked]
    exact unique.add edit.entries free ino

theorem extTouchDir_unique (unique : volume.NamesUnique) (role : Role) (dir : Nat) :
    (extTouchDir calls role volume dir).NamesUnique :=
  unique.of_entries (editsInode_touchDir calls role volume dir).entries

theorem ext2fsWriteInode_entries (fault : Option Errcode) (volume : ExtVolume) (ino : Nat)
    (inode : ExtInode) : (ext2fsWriteInode fault volume ino inode).entries = volume.entries := by
  cases fault <;> rfl

theorem extUndoCreate_entries (ino : Nat) (nin : ExtInode) (pre : WccPre) (code : Errcode) :
    (extUndoCreate config calls volume dir ino nin pre code).2.entries = volume.entries := by
  unfold extUndoCreate
  exact ext2fsWriteInode_entries _ volume ino _

theorem extCreateNew_unique (unique : volume.NamesUnique)
    (free : findEntry (volume.entries dir) name = none) (dirAttr : NfsAttr)
    (sattr : Option SAttr3) :
    (extCreateNew config calls volume dir name dirAttr sattr).2.NamesUnique := by
  unfold extCreateNew
  split
  · exact unique
  rename_i ino fresh
  simp only
  split
  · exact unique.of_entries (extUndoCreate_entries ino _ _ _)
  have marked : (((volume.markInode ino true).setInode ino
      (newRegInode config calls.now sattr)).setContent ino []).NamesUnique := unique
  have linked := (@extLinkWithExpand_unique calls) marked .dir free ino
  split
  · rename_i code left failed
    rw [failed] at linked
    exact linked.of_entries (extUndoCreate_entries ino _ _ _)
  · rename_i left done
    rw [done] at linked
    have touched := (@extTouchDir_unique calls) linked .dir dir
    simp only
    split
    · split
      · exact touched.of_entries (editsInode_opSetattr config calls.inner _ ino _).entries
      · exact touched
    · exact touched

theorem ext2fsMkdir2_unique {site : ExtSite} {made : Nat × ExtVolume} (unique : volume.NamesUnique)
    (leaf : validLeafName name = true)
    (created : ext2fsMkdir2 calls site volume dir name = .ok made) : made.2.NamesUnique := by
  unfold ext2fsMkdir2 at created
  split at created
  · cases created
  rename_i ino fresh
  split at created
  · cases created
  rename_i missing
  have free := ext2fsLookup_missing leaf rfl missing
  cases created
  have same : ((((volume.setInode ino (newDirInode calls volume)).claimBlocks ino
      ((calls.newBlocks site).take 1)).setDotdot ino dir).markInode ino true).entries =
        volume.entries :=
    (editsInode_claimBlocks (volume.setInode ino (newDirInode calls volume)) ino
      ((calls.newBlocks site).take 1)).entries
  generalize (((volume.setInode ino (newDirInode calls volume)).claimBlocks ino
    ((calls.newBlocks site).take 1)).setDotdot ino dir).markInode ino true = made at *
  have emptied : (made.setEntries ino []).NamesUnique :=
    (unique.of_entries same).setEntries List.nodup_nil
  have stillFree : findEntry ((made.setEntries ino []).entries dir) name = none := by
    rw [entries_setEntries, same]
    by_cases here : dir = ino
    · rw [here, Function.update_self]
      rfl
    · rw [Function.update_of_ne here]
      exact free
  have grown := editsInode_growDir (made.setEntries ino []) dir ((calls.newBlocks site).drop 1)
  have linked := @NamesUnique.add calls _ _ _ _ emptied grown.entries stillFree ino
  exact linked.of_entries rfl

theorem extMkdirWithExpand_unique (unique : volume.NamesUnique) (leaf : validLeafName name = true) :
    (extMkdirWithExpand calls volume dir name).2.NamesUnique := by
  unfold extMkdirWithExpand
  split
  · rename_i made created
    exact ext2fsMkdir2_unique unique leaf created
  split
  · split
    · exact unique
    have grown := unique.of_entries
      (editsInode_growDir volume dir (calls.newBlocks (.expandDir .dir))).entries
    simp only
    split
    · rename_i made created
      exact ext2fsMkdir2_unique grown leaf created
    · exact grown
  · exact unique

theorem ext2fsSymlink_unique {site : ExtSite} {target : Name} {made : ExtVolume}
    (unique : volume.NamesUnique) (leaf : validLeafName name = true)
    (created : ext2fsSymlink calls site volume dir name target = .ok made) : made.NamesUnique := by
  unfold ext2fsSymlink at created
  split at created
  · cases created
  split at created
  · cases created
  rename_i ino fresh
  split at created
  · cases created
  rename_i missing
  have free := ext2fsLookup_missing leaf rfl missing
  cases created
  refine unique.add ?_ free ino
  rw [(editsInode_growDir _ dir _).entries]
  change (ite _ _ _ : ExtVolume).entries = _
  split
  · rfl
  · exact ((editsInode_claimBlocks _ ino _).trans (editsInode_setContent _ ino _)).entries

theorem extSymlinkWithExpand_unique {target : Name} (unique : volume.NamesUnique)
    (leaf : validLeafName name = true) :
    (extSymlinkWithExpand calls volume dir name target).2.NamesUnique := by
  unfold extSymlinkWithExpand
  split
  · rename_i made created
    exact ext2fsSymlink_unique unique leaf created
  split
  · split
    · exact unique
    have grown := unique.of_entries
      (editsInode_growDir volume dir (calls.newBlocks (.expandDir .dir))).entries
    simp only
    split
    · rename_i made created
      exact ext2fsSymlink_unique grown leaf created
    · exact grown
  · exact unique

theorem extOpCreate_unique (unique : volume.NamesUnique) (mode : CreateMode)
    (sattr : Option SAttr3)
    (truthful : calls.fault (.lookup .dir) = none ∨ findEntry (volume.entries dir) name = none) :
    (extOpCreate config calls volume dir name mode sattr).2.NamesUnique := by
  unfold extOpCreate
  split
  · exact unique
  simp only
  split
  · exact unique
  split
  · exact unique
  rename_i leaf
  split
  · exact unique
  split
  · rename_i existing found
    split
    · exact unique
    unfold extCreateExisting
    cases sattr with
    | none => exact unique
    | some settings => exact unique.of_entries (editsInode_opSetattr config _ volume existing _).entries
  · rename_i missing
    have free : findEntry (volume.entries dir) name = none := by
      rcases truthful with silent | free
      · exact ext2fsLookup_missing (by simpa using leaf) silent missing
      · exact free
    exact extCreateNew_unique unique free _ sattr

theorem extOpMkdir_unique (unique : volume.NamesUnique) (sattr : Option SAttr3) :
    (extOpMkdir config calls volume dir name sattr).2.NamesUnique := by
  unfold extOpMkdir
  split
  · exact unique
  simp only
  split
  · exact unique
  split
  · exact unique
  rename_i leaf
  split
  · exact unique
  split
  · exact unique
  have made := (@extMkdirWithExpand_unique calls _ dir) unique (by simpa using leaf)
  split
  · rename_i code left failed
    rw [failed] at made
    exact made
  · rename_i ino left created
    rw [created] at made
    refine extTouchDir_unique ?_ .dir dir
    split
    · exact made
    · exact made.of_entries (ext2fsWriteInode_entries _ _ _ _)

theorem extOpSymlink_unique (unique : volume.NamesUnique) (sattr : Option SAttr3) (target : Name) :
    (extOpSymlink config calls volume dir name sattr target).2.NamesUnique := by
  unfold extOpSymlink
  split
  · exact unique
  split
  · exact unique
  simp only
  split
  · exact unique
  split
  · exact unique
  rename_i leaf
  split
  · exact unique
  split
  · exact unique
  have made := (@extSymlinkWithExpand_unique calls _ dir _ target) unique
    (by simpa using leaf)
  split
  · rename_i code left failed
    rw [failed] at made
    exact made
  · rename_i left created
    rw [created] at made
    split
    · exact made
    refine extTouchDir_unique ?_ .dir dir
    split
    · exact made
    · exact made.of_entries (ext2fsWriteInode_entries _ _ _ _)

theorem extOpLink_unique (unique : volume.NamesUnique) (ino : Nat)
    (truthful : calls.fault (.lookup .dir) = none ∨ findEntry (volume.entries dir) name = none) :
    (extOpLink config calls volume ino dir name).2.NamesUnique := by
  unfold extOpLink
  split
  · exact unique
  simp only
  split
  · exact unique
  split
  · exact unique
  split
  · exact unique
  split
  · exact unique
  rename_i leaf
  split
  · exact unique
  split
  · exact unique
  rename_i missing
  have free : findEntry (volume.entries dir) name = none := by
    rcases truthful with silent | free
    · exact ext2fsLookup_missing (by simpa using leaf) silent missing
    · exact free
  have linked := (@extLinkWithExpand_unique calls) unique .dir free ino
  split
  · rename_i code left failed
    rw [failed] at linked
    exact linked
  · rename_i left done
    rw [done] at linked
    exact extTouchDir_unique (linked.of_entries (ext2fsWriteInode_entries _ _ _ _)) .dir dir

theorem extOpRemove_unique (unique : volume.NamesUnique) :
    (extOpRemove config calls volume dir name).2.NamesUnique := by
  by_cases succeeded : (extOpRemove config calls volume dir name).1.status = .ok
  · obtain ⟨ino, -, -, -, -, -, -, after⟩ := extOpRemove_ok_cases succeeded
    rw [after]
    refine extTouchDir_unique ?_ .dir dir
    exact unique.erase (extDropLink_entries calls _ ino _).1
  · rw [extOpRemove_refused succeeded]
    exact unique

theorem extOpRmdir_unique (unique : volume.NamesUnique) :
    (extOpRmdir config calls volume dir name).2.NamesUnique := by
  by_cases succeeded : (extOpRmdir config calls volume dir name).1.status = .ok
  · obtain ⟨ino, -, -, -, -, -, -, -, -, after⟩ := extOpRmdir_ok_cases succeeded
    rw [after]
    exact unique.erase (extReleaseDir_entries calls _ dir ino _).1
  · rw [extOpRmdir_refused succeeded]
    exact unique

/-- The move of RENAME, the target name being free. -/
theorem extMoveEntry_unique {toDir ino : Nat} {toName : Name} {inode : ExtInode}
    (unique : volume.NamesUnique) (present : (⟨name, ino⟩ : DirEntry Name) ∈ volume.entries dir)
    (free : findEntry (volume.entries toDir) toName = none) (fromPre toPre : WccPre) :
    (extMoveEntry config calls volume dir name toDir toName ino inode fromPre toPre).2.NamesUnique := by
  have linked := (@extLinkWithExpand_unique calls) unique .target free ino
  rcases extMoveEntry_cases config calls volume dir toDir name toName ino inode fromPre toPre present
    with ⟨code, -, -, after⟩ | ⟨-, code, -, -, after⟩ | ⟨-, -, -, after⟩
  · rw [after]
    exact linked
  · rw [after]
    exact linked
  · rw [after]
    exact linked.erase (extMoved_fields calls dir toDir ino inode _).1

theorem extOpRename_unique {fromDir toDir : Nat} {fromName toName : Name}
    (unique : volume.NamesUnique)
    (truthful : calls.fault (.lookup .target) ≠ some .fileNotFound ∨
      findEntry (volume.entries toDir) toName = none) :
    (extOpRename config calls volume fromDir fromName toDir toName).2.NamesUnique := by
  rcases extOpRename_cases config calls volume fromDir toDir fromName toName with
    ⟨unchanged, -⟩ | ⟨ino, removes, left, goes⟩
  · rw [unchanged]
    exact unique
  have source := (ext2fsLookup_ok goes.fromLeaf goes.sourceLookup).2
  rw [goes.moves]
  rcases goes.target with ⟨-, rfl, missing⟩ | ⟨-, replaced, found, different, -, kinds, removed, rfl⟩
  · refine extMoveEntry_unique unique (findEntry_mem source) ?_ _ _
    rcases truthful with truthful | free
    · cases silent : calls.fault (.lookup .target) with
      | none =>
          rw [silent] at missing
          exact ext2fsLookup_missing goes.toLeaf rfl missing
      | some code =>
          rw [silent] at missing truthful
          cases missing
          exact absurd rfl truthful
    · exact free
  · obtain ⟨again, located, entries, -⟩ := extRemoveTarget_ok removed
    have target := (ext2fsLookup_ok goes.toLeaf found).2
    have same : again = replaced := Option.some.inj (located.symm.trans target)
    subst same
    have kept := unique.erase entries
    refine extMoveEntry_unique kept ?_ ?_ _ _
    · rw [entries]
      by_cases here : fromDir = toDir
      · rw [here, Function.update_self]
        rw [here] at source
        refine (unique toDir).mem_erase.mpr ⟨fun equal => different ?_, findEntry_mem source⟩
        exact (congrArg DirEntry.ino equal).symm
      · rw [Function.update_of_ne here]
        exact findEntry_mem source
    · rw [entries, Function.update_self]
      exact (unique toDir).findEntry_erase_self (findEntry_mem located)

end Operations

/-- A look-up of the new name fails in a way that is taken for a missing name, while the name
is there. CREATE and LINK take every error so, RENAME only the one for a missing name. -/
def Request.Misread (calls : ExtCalls) (volume : ExtVolume) : Request → Prop
  | .create dir name _ | .link _ dir name =>
      calls.fault (.lookup .dir) ≠ none ∧
        ∃ dirIno, xdrGetFh dir = some dirIno ∧ findEntry (volume.entries dirIno) name ≠ none
  | .rename _ _ toFh toName =>
      calls.fault (.lookup .target) = some .fileNotFound ∧
        ∃ toDir, xdrGetFh toFh = some toDir ∧ findEntry (volume.entries toDir) toName ≠ none
  | _ => False

def Volume.NamesUnique : Volume → Prop
  | .ntfs _ => False
  | .ext volume => volume.NamesUnique

section Run

variable {server : Server} {calls : Calls} {volume : ExtVolume}

theorem handleProc_unique (unique : volume.NamesUnique) (request : Request)
    (read : ¬ request.Misread calls.ext volume) :
    (handleProc server calls (.ext volume) request).2.NamesUnique := by
  have kept : Volume.NamesUnique (.ext volume) := unique
  cases request with
  | null => exact kept
  | mnt path => exact kept
  | umnt path => exact unique.of_entries (editsInode_flush _ volume 0).entries
  | umntall => exact unique.of_entries (editsInode_flush _ volume 0).entries
  | getattr fh =>
      simp only [handleProc]
      split <;> exact kept
  | access fh wanted =>
      simp only [handleProc]
      split <;> exact kept
  | readlink fh =>
      simp only [handleProc]
      split <;> exact kept
  | read fh offset count =>
      simp only [handleProc]
      split <;> exact kept
  | mknod dir name =>
      simp only [handleProc]
      split <;> exact kept
  | fsstat fh =>
      simp only [handleProc]
      split <;> exact kept
  | fsinfo fh =>
      simp only [handleProc]
      split <;> exact kept
  | pathconf fh =>
      simp only [handleProc]
      split <;> exact kept
  | lookup dir name =>
      simp only [handleProc]
      split <;> exact kept
  | setattr fh sattr guard =>
      simp only [handleProc]
      split
      · exact kept
      simp only [handleSetattr]
      split
      · exact kept
      split
      · exact kept
      · exact unique.of_entries (editsInode_opSetattr _ _ volume _ sattr).entries
  | write fh offset count stable data =>
      simp only [handleProc]
      split
      · exact kept
      · exact unique.of_entries (editsInode_opWrite _ _ volume _ offset _ stable).entries
  | create dir name how =>
      simp only [handleProc]
      split
      · exact kept
      rename_i dirIno decoded
      refine extOpCreate_unique unique how.mode how.sattr ?_
      by_contra misread
      rw [not_or] at misread
      exact read ⟨misread.1, dirIno, decoded, misread.2⟩
  | mkdir dir name sattr =>
      simp only [handleProc]
      split
      · exact kept
      · exact extOpMkdir_unique unique _
  | symlink dir name sattr target =>
      simp only [handleProc]
      split
      · exact kept
      · exact extOpSymlink_unique unique _ target
  | remove dir name =>
      simp only [handleProc]
      split
      · exact kept
      · exact extOpRemove_unique unique
  | rmdir dir name =>
      simp only [handleProc]
      split
      · exact kept
      · exact extOpRmdir_unique unique
  | rename fromFh fromName toFh toName =>
      simp only [handleProc]
      split
      swap
      · exact kept
      rename_i fromDir toDir fromDecoded toDecoded
      refine extOpRename_unique unique ?_
      by_contra misread
      rw [not_or, not_not] at misread
      exact read ⟨misread.1, toDir, toDecoded, misread.2⟩
  | link fh dir name =>
      simp only [handleProc]
      split
      swap
      · exact kept
      rename_i ino dirIno decoded dirDecoded
      refine extOpLink_unique unique ino ?_
      by_contra misread
      rw [not_or] at misread
      exact read ⟨misread.1, dirIno, dirDecoded, misread.2⟩
  | readdir dir cookie verf count =>
      simp only [handleProc]
      split
      · exact kept
      · rw [handleReaddir_volume]
        exact kept
  | readdirplus dir cookie verf dircount maxcount =>
      simp only [handleProc]
      split
      · exact kept
      · rw [handleReaddirplus_volume]
        exact kept
  | commit fh offset count =>
      simp only [handleProc]
      split
      · exact kept
      · exact unique.of_entries (editsInode_opCommit _ _ volume _).entries

end Run

/-- In a run none of whose look-ups is misread, whatever else fails, every directory of every
state holds each name once. -/
theorem ext_names_unique (server : Server) (volume : ExtVolume) (run : List Exchange)
    (unique : volume.NamesUnique)
    (read : Steps server.step (fun state exchange => ∀ volume, state = .ext volume →
      ¬ exchange.request.Misread exchange.calls.ext volume) (.ext volume) run) :
    (run.foldl server.step (.ext volume)).NamesUnique := by
  have start : (Volume.ext volume).NamesUnique := unique
  refine read.invariant (fun state exchange kept met => ?_) start
  cases state with
  | ntfs mount => exact kept.elim
  | ext volume => exact handleProc_unique kept exchange.request (met volume rfl)

/-- CREATE of a name whose look-up fails with a read error. -/
def createUnread (name : Name) : Exchange where
  request := .create (xdrPutFh extRootIno) name (.unchecked .empty)
  calls := { Calls.quiet 20 with
    ext := { ExtCalls.quiet 20 with
      fault := fun site => if site = .lookup .dir then some .other else none } }

theorem twoFiles_unique : twoFiles.NamesUnique := by
  intro dir
  by_cases root : dir = extRootIno
  · rw [root]
    exact twoFiles_wellFormed
  · simp [twoFiles, ExtVolume.setEntries, ExtVolume.fresh, root, UniqueNames]

theorem createUnread_doubles_name :
    twoFiles.NamesUnique ∧
      ¬ ([createUnread [97]].foldl Server.plain.step (.ext twoFiles)).NamesUnique := by
  refine ⟨twoFiles_unique, fun unique => ?_⟩
  have root := unique extRootIno
  revert root
  unfold UniqueNames
  decide

theorem ext_names_unique_created :
    ([createUnread [99]].foldl Server.plain.step (.ext twoFiles)).NamesUnique := by
  refine ext_names_unique .plain twoFiles [createUnread [99]] twoFiles_unique ⟨?_, trivial⟩
  rintro volume ⟨⟩ ⟨-, dirIno, decoded, bound⟩
  have root : xdrGetFh (xdrPutFh extRootIno) = some extRootIno := by decide
  obtain rfl : extRootIno = dirIno := Option.some.inj (root.symm.trans decoded)
  exact bound (by decide)

end Rufux.Mountd
