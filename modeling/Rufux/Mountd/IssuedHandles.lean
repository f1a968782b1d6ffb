import Rufux.Mountd.Metadata

/-!
The handles that replies give out: each is that of an object which is there.
-/

namespace Rufux.Mountd

open Rufux.Library ExtVolume

section Ext

/-- The number opens an inode in use. -/
structure ExtVolume.Valid (volume : ExtVolume) (ino : Nat) : Prop where
  lower : extRootIno ≤ ino
  upper : ino ≤ volume.inodesCount
  used : volume.inodeMap ino = true
  linked : (volume.inode ino).linksCount ≠ 0

theorem extReadValidInode_valid {fault : Option Errcode} {volume : ExtVolume} {ino : Nat}
    {inode : ExtInode} (valid : extReadValidInode fault volume ino = .ok inode) :
    volume.Valid ino := by
  obtain ⟨lower, upper, used, rfl, linked, -⟩ := extReadValidInode_ok valid
  exact ⟨lower, upper, used, linked⟩

theorem ExtVolume.Valid.resolves {volume : ExtVolume} {ino : Nat} (valid : volume.Valid ino) :
    (Volume.ext volume).resolves ino = true := by
  simp only [Volume.resolves,
    extReadValidInode_of_valid valid.lower valid.upper valid.used valid.linked]
  rfl

theorem resolves_ext_valid {volume : ExtVolume} {ino : Nat}
    (opens : (Volume.ext volume).resolves ino = true) : volume.Valid ino := by
  unfold Volume.resolves at opens
  cases valid : extReadValidInode none volume ino with
  | error status => simp [valid, Except.isOk, Except.toBool] at opens
  | ok inode => exact extReadValidInode_valid valid

theorem ExtVolume.EditsInode.valid {other ino : Nat} {before after : ExtVolume}
    (edit : EditsInode other before after) (valid : before.Valid ino) : after.Valid ino where
  lower := valid.lower
  upper := by
    rw [edit.inodesCount]
    exact valid.upper
  used := by
    rw [edit.inodeMap]
    exact valid.used
  linked := by
    rw [edit.linksCount_eq]
    exact valid.linked

variable {config : Config} {calls : ExtCalls} {volume : ExtVolume} {dir : Nat} {name : Name}

theorem ExtVolume.Valid.setInode {ino other : Nat} {inode : ExtInode} (valid : volume.Valid ino)
    (linked : other = ino → inode.linksCount ≠ 0) : (volume.setInode other inode).Valid ino where
  lower := valid.lower
  upper := valid.upper
  used := valid.used
  linked := by
    simp only [setInode_fields]
    by_cases same : ino = other
    · subst same
      rw [Function.update_self]
      exact linked rfl
    · rw [Function.update_of_ne same]
      exact valid.linked

theorem ExtVolume.Valid.addEntry {ino target : Nat} (valid : volume.Valid ino) :
    (volume.addEntry calls dir name target).Valid ino :=
  ⟨valid.lower, valid.upper, valid.used, valid.linked⟩

theorem ExtVolume.Valid.writeInode {ino : Nat} {inode : ExtInode} (fault : Option Errcode)
    (valid : volume.Valid ino) (linked : inode.linksCount = (volume.inode ino).linksCount) :
    (ext2fsWriteInode fault volume ino inode).Valid ino := by
  cases fault with
  | some code => exact valid
  | none =>
      refine valid.setInode fun _ => ?_
      rw [linked]
      exact valid.linked

theorem extSetattrMeta_error_ne_ok {ino : Nat} {inode : ExtInode} {sattr : SAttr3}
    {status : Nfsstat}
    (failed : (extSetattrMeta config calls volume ino inode sattr).1 = .error status) :
    status ≠ .ok := by
  unfold extSetattrMeta at failed
  split at failed
  · rename_i code _
    cases failed
    exact extErrToNfs3_ne_ok code
  · cases failed

theorem extOpSetattr_error_ne_ok {ino : Nat} {sattr : SAttr3} {status : Nfsstat}
    (failed : (extOpSetattr config calls volume ino sattr).1 = .error status) : status ≠ .ok := by
  unfold extOpSetattr at failed
  split at failed
  · rename_i invalid
    cases failed
    exact extReadValidInode_error_ne_ok invalid
  split at failed
  · exact extSetattrMeta_error_ne_ok failed
  split at failed
  · cases failed
    decide
  split at failed
  · cases failed
    decide
  split at failed
  · rename_i code _
    cases failed
    exact extErrToNfs3_ne_ok code
  split at failed
  · rename_i code _
    cases failed
    exact extErrToNfs3_ne_ok code
  split at failed
  · rename_i code _
    cases failed
    exact extErrToNfs3_ne_ok code
  simp only at failed
  split at failed
  · cases failed
    decide
  · exact extSetattrMeta_error_ne_ok failed

theorem extOpSetattr_ok_valid {ino : Nat} {sattr : SAttr3} {attr : NfsAttr}
    (set : (extOpSetattr config calls volume ino sattr).1 = .ok attr) :
    (extOpSetattr config calls volume ino sattr).2.Valid ino := by
  refine (editsInode_opSetattr config calls volume ino sattr).valid ?_
  unfold extOpSetattr at set
  split at set
  · cases set
  · rename_i valid
    exact extReadValidInode_valid valid

theorem extCreateNew_issues {dirAttr : NfsAttr} {sattr : Option SAttr3}
    (granted : (extCreateNew config calls volume dir name dirAttr sattr).1.status = .ok) :
    (extCreateNew config calls volume dir name dirAttr sattr).2.Valid
      (extCreateNew config calls volume dir name dirAttr sattr).1.ino := by
  unfold extCreateNew at granted ⊢
  split
  · rename_i code failed
    simp only [failed] at granted
    exact absurd granted (extErrToNfs3_ne_ok code)
  rename_i ino created
  obtain ⟨-, above, -, within, -, -⟩ := ext2fsNewInode_ok created
  simp only [created] at granted
  split
  · rename_i code failed
    simp only [failed] at granted
    exact absurd granted (extErrToNfs3_ne_ok code)
  rename_i silent
  simp only [silent] at granted
  have written : (((volume.markInode ino true).setInode ino
      (newRegInode config calls.now sattr)).setContent ino []).Valid ino := by
    refine ⟨Nat.le_of_lt above, within, by simp, ?_⟩
    have linked : (newRegInode config calls.now sattr).linksCount = 1 := by
      cases sattr <;> rfl
    simp [linked]
  obtain ⟨grown, edit, ⟨code, failed⟩ | linkDone⟩ :=
    extLinkWithExpand_cases calls .dir (((volume.markInode ino true).setInode ino
      (newRegInode config calls.now sattr)).setContent ino []) dir name ino
  · simp only [failed] at granted
    exact absurd granted (extErrToNfs3_ne_ok code)
  simp only [linkDone]
  have touched := (editsInode_touchDir calls .dir (grown.addEntry calls dir name ino) dir).valid
    ((edit.valid written).addEntry)
  split
  · split
    · exact (editsInode_opSetattr config calls.inner _ ino _).valid touched
    · exact touched
  · exact touched

theorem extOpCreate_issues {mode : CreateMode} {sattr : Option SAttr3}
    (granted : (extOpCreate config calls volume dir name mode sattr).1.status = .ok) :
    (extOpCreate config calls volume dir name mode sattr).2.Valid
      (extOpCreate config calls volume dir name mode sattr).1.ino := by
  unfold extOpCreate at granted ⊢
  split
  · rename_i invalid
    simp only [invalid] at granted
    exact absurd granted (extReadValidInode_error_ne_ok invalid)
  rename_i din valid
  simp only [valid] at granted
  split
  · rename_i notDir
    rw [if_pos notDir] at granted
    cases granted
  rename_i directory
  rw [if_neg directory] at granted
  split
  · rename_i illegal
    rw [if_pos illegal] at granted
    cases granted
  rename_i legal
  rw [if_neg legal] at granted
  split
  · rename_i long
    rw [if_pos long] at granted
    cases granted
  rename_i short
  rw [if_neg short] at granted
  split
  · rename_i existing found
    simp only [found] at granted
    split
    · rename_i guarded
      rw [if_pos guarded] at granted
      cases granted
    rename_i unchecked
    rw [if_neg unchecked] at granted
    unfold extCreateExisting at granted ⊢
    cases sattr with
    | none =>
        simp only at granted ⊢
        split at granted
        · rename_i status failed
          unfold extOpGetattr at failed
          split at failed
          · rename_i invalid
            cases failed
            exact absurd granted (extReadValidInode_error_ne_ok invalid)
          · cases failed
        · rename_i attr got
          exact extReadValidInode_valid (extOpGetattr_ok got).1
    | some settings =>
        simp only at granted ⊢
        split at granted
        · rename_i status failed
          exact absurd granted (extOpSetattr_error_ne_ok failed)
        · rename_i attr set
          exact extOpSetattr_ok_valid set
  · rename_i missing
    simp only [missing] at granted
    exact extCreateNew_issues granted

theorem ext2fsMkdir2_issues {site : ExtSite} {made : Nat × ExtVolume} (valid : volume.Valid dir)
    (created : ext2fsMkdir2 calls site volume dir name = .ok made) : made.2.Valid made.1 := by
  unfold ext2fsMkdir2 at created
  split at created
  · cases created
  rename_i ino new
  obtain ⟨-, above, -, within, free, -⟩ := ext2fsNewInode_ok new
  split at created
  · cases created
  cases created
  have apart : dir ≠ ino := by
    intro same
    have used := valid.used
    rw [same, free] at used
    cases used
  have written : (volume.setInode ino (newDirInode calls volume)).claimBlocks ino
      ((calls.newBlocks site).take 1) |>.setDotdot ino dir |>.markInode ino true |>.Valid ino := by
    have links := (editsInode_claimBlocks (volume.setInode ino (newDirInode calls volume)) ino
      ((calls.newBlocks site).take 1)).linksCount
    refine ⟨Nat.le_of_lt above, by simpa using within, by simp, ?_⟩
    simp only [markInode_fields, setDotdot_fields, links]
    simp [newDirInode]
  have emptied : (((volume.setInode ino (newDirInode calls volume)).claimBlocks ino
      ((calls.newBlocks site).take 1) |>.setDotdot ino dir |>.markInode ino true).setEntries ino
        []).Valid ino := ⟨written.lower, written.upper, written.used, written.linked⟩
  have grown := (editsInode_growDir _ dir ((calls.newBlocks site).drop 1)).valid emptied
  exact (grown.addEntry).setInode fun same => absurd same apart

theorem extMkdirWithExpand_issues {ino : Nat} (valid : volume.Valid dir)
    (created : (extMkdirWithExpand calls volume dir name).1 = .ok ino) :
    (extMkdirWithExpand calls volume dir name).2.Valid ino := by
  unfold extMkdirWithExpand at created ⊢
  split
  · rename_i made done
    simp only [done] at created
    cases created
    exact ext2fsMkdir2_issues valid done
  rename_i code failed
  simp only [failed] at created
  split
  · rename_i full
    rw [if_pos full] at created
    split
    · rename_i stuck
      simp only [stuck] at created
      cases created
    rename_i expanded
    simp only [expanded] at created
    simp only
    split
    · rename_i made done
      simp only [done] at created
      cases created
      exact ext2fsMkdir2_issues ((editsInode_growDir volume dir _).valid valid) done
    · rename_i again failedAgain
      simp only [failedAgain] at created
      cases created
  · rename_i other
    rw [if_neg other] at created
    cases created

theorem extDressDir_linksCount (config : Config) (calls : ExtCalls) (inode : ExtInode)
    (sattr : Option SAttr3) :
    (extDressDir config calls inode sattr).linksCount = inode.linksCount := by
  cases sattr <;> rfl

theorem extOpMkdir_issues {sattr : Option SAttr3}
    (granted : (extOpMkdir config calls volume dir name sattr).1.status = .ok) :
    (extOpMkdir config calls volume dir name sattr).2.Valid
      (extOpMkdir config calls volume dir name sattr).1.ino := by
  unfold extOpMkdir at granted ⊢
  split
  · rename_i invalid
    simp only [invalid] at granted
    exact absurd granted (extReadValidInode_error_ne_ok invalid)
  rename_i din valid
  simp only [valid] at granted
  split
  · rename_i notDir
    rw [if_pos notDir] at granted
    cases granted
  rename_i directory
  rw [if_neg directory] at granted
  split
  · rename_i illegal
    rw [if_pos illegal] at granted
    cases granted
  rename_i legal
  rw [if_neg legal] at granted
  split
  · rename_i long
    rw [if_pos long] at granted
    cases granted
  rename_i short
  rw [if_neg short] at granted
  split
  · rename_i existing found
    simp only [found] at granted
    cases granted
  rename_i missing
  simp only [missing] at granted
  split
  · rename_i code left failed
    simp only [failed] at granted
    exact absurd granted (extErrToNfs3_ne_ok code)
  rename_i ino made created
  have issued : made.Valid ino := by
    have ok := extMkdirWithExpand_issues (extReadValidInode_valid valid)
      (congrArg Prod.fst created)
    rwa [created] at ok
  simp only
  unfold ext2fsReadInode
  cases calls.fault (.readInode .child) with
  | some code => exact (editsInode_touchDir calls .dir made dir).valid issued
  | none =>
      exact (editsInode_touchDir calls .dir _ dir).valid
        (issued.writeInode _ (extDressDir_linksCount config calls _ sattr))

theorem ext2fsSymlink_issues {site : ExtSite} {target : Name} {made : ExtVolume}
    (leaf : validLeafName name = true)
    (created : ext2fsSymlink calls site volume dir name target = .ok made) :
    ∃ ino, made.Valid ino ∧ findEntry (made.entries dir) name = some ino := by
  unfold ext2fsSymlink at created
  split at created
  · cases created
  split at created
  · cases created
  rename_i ino new
  obtain ⟨-, above, -, within, -, -⟩ := ext2fsNewInode_ok new
  split at created
  · cases created
  rename_i code missing
  cases created
  have free := ext2fsLookup_missing leaf rfl missing
  have stored : ∀ blocks, (if target.length < 60 then
        volume.setInode ino (newSymlinkInode calls target)
      else ((volume.setInode ino (newSymlinkInode calls target)).claimBlocks ino blocks).setContent
        ino target).inodesCount = volume.inodesCount ∧
      (if target.length < 60 then volume.setInode ino (newSymlinkInode calls target)
      else ((volume.setInode ino (newSymlinkInode calls target)).claimBlocks ino blocks).setContent
        ino target).entries = volume.entries ∧
      ((if target.length < 60 then volume.setInode ino (newSymlinkInode calls target)
      else ((volume.setInode ino (newSymlinkInode calls target)).claimBlocks ino blocks).setContent
        ino target).inode ino).linksCount = 1 := by
    intro blocks
    split
    · simp [newSymlinkInode]
    · have links := (editsInode_claimBlocks (volume.setInode ino (newSymlinkInode calls target)) ino
        blocks).linksCount
      refine ⟨by simp, by simp, ?_⟩
      simp only [setContent_fields, links]
      simp [newSymlinkInode]
  obtain ⟨counts, entries, links⟩ := stored ((calls.newBlocks site).take 1)
  refine ⟨ino, ?_, ?_⟩
  · refine ((editsInode_growDir _ dir _).valid ?_).addEntry
    refine ⟨Nat.le_of_lt above, ?_, by simp, ?_⟩
    · simp only [markInode_fields, counts]
      exact within
    · simp only [markInode_fields, links]
      decide
  · simp only [addEntry_fields, Function.update_self, growDir_fields, markInode_fields, entries]
    exact findEntry_insertEntry_self calls.arrange free ino

theorem extSymlinkWithExpand_issues {target : Name} {made : ExtVolume}
    (leaf : validLeafName name = true)
    (created : extSymlinkWithExpand calls volume dir name target = (none, made)) :
    ∃ ino, made.Valid ino ∧ findEntry (made.entries dir) name = some ino := by
  unfold extSymlinkWithExpand at created
  split at created
  · rename_i done
    cases created
    exact ext2fsSymlink_issues leaf done
  split at created
  · split at created
    · cases created
    simp only at created
    split at created
    · rename_i done
      cases created
      exact ext2fsSymlink_issues leaf done
    · cases created
  · cases created

theorem extDressSymlink_linksCount (config : Config) (calls : ExtCalls) (inode : ExtInode)
    (sattr : Option SAttr3) :
    (extDressSymlink config calls inode sattr).linksCount = inode.linksCount := by
  cases sattr <;> rfl

theorem extOpSymlink_issues {sattr : Option SAttr3} {target : Name}
    (granted : (extOpSymlink config calls volume dir name sattr target).1.status = .ok) :
    (extOpSymlink config calls volume dir name sattr target).2.Valid
      (extOpSymlink config calls volume dir name sattr target).1.ino := by
  unfold extOpSymlink at granted ⊢
  split
  · rename_i empty
    rw [if_pos empty] at granted
    cases granted
  rename_i nonempty
  rw [if_neg nonempty] at granted
  split
  · rename_i invalid
    simp only [invalid] at granted
    exact absurd granted (extReadValidInode_error_ne_ok invalid)
  rename_i din valid
  simp only [valid] at granted
  split
  · rename_i notDir
    rw [if_pos notDir] at granted
    cases granted
  rename_i directory
  rw [if_neg directory] at granted
  split
  · rename_i illegal
    rw [if_pos illegal] at granted
    cases granted
  rename_i legal
  rw [if_neg legal] at granted
  have leaf : validLeafName name = true := by simpa using legal
  split
  · rename_i long
    rw [if_pos long] at granted
    cases granted
  rename_i short
  rw [if_neg short] at granted
  split
  · rename_i existing found
    simp only [found] at granted
    cases granted
  rename_i missing
  simp only [missing] at granted
  split
  · rename_i code left failed
    simp only [failed] at granted
    exact absurd granted (extErrToNfs3_ne_ok code)
  rename_i made created
  simp only [created] at granted
  obtain ⟨ino, issued, bound⟩ := extSymlinkWithExpand_issues leaf created
  split
  · rename_i code lost
    simp only [lost] at granted
    exact absurd granted (extErrToNfs3_ne_ok code)
  rename_i found located
  have same := (ext2fsLookup_ok leaf located).2
  rw [bound] at same
  cases same
  simp only
  unfold ext2fsReadInode
  cases calls.fault (.readInode .child) with
  | some code => exact (editsInode_touchDir calls .dir made dir).valid issued
  | none =>
      exact (editsInode_touchDir calls .dir _ dir).valid
        (issued.writeInode _ (extDressSymlink_linksCount config calls _ sattr))

theorem extOpLookup_issues {child : Nat} {attr : NfsAttr}
    (found : extOpLookup config calls volume dir name = .ok (child, attr)) :
    volume.Valid child := by
  unfold extOpLookup at found
  split at found
  · cases found
  split at found
  · cases found
  split at found
  · cases found
  split at found
  · cases found
  split at found
  · cases found
  · rename_i valid
    cases found
    exact extReadValidInode_valid valid

end Ext

section Ntfs

variable {config : Config} {lib : NtfsLib} {calls : NtfsCalls} {mount : NtfsMount} {dirIno : Nat}
  {name : Name}

theorem resolves_ntfs_iff {ino : Nat} :
    (Volume.ntfs mount).resolves ino = true ↔
      ∃ record, mount.volume.record (mref ino) = some record ∧
        (mseqno ino = 0 ∨ mseqno ino = mount.volume.sequence (mref ino)) := by
  unfold Volume.resolves
  constructor
  · intro opens
    cases opened : ntfsInodeOpen none mount.volume ino with
    | error code => simp [opened, Except.isOk, Except.toBool] at opens
    | ok record => exact ⟨record, (ntfsInodeOpen_ok opened).2⟩
  · rintro ⟨record, present, sequence⟩
    simp only [ntfsInodeOpen_of_record present sequence]
    rfl

theorem ntfsInodeOpen_resolves {fault : Option Errno} {ino : Nat} {record : NtfsRecord}
    (opened : ntfsInodeOpen fault mount.volume ino = .ok record) :
    (Volume.ntfs mount).resolves ino = true :=
  resolves_ntfs_iff.mpr ⟨record, (ntfsInodeOpen_ok opened).2⟩

theorem NtfsVolume.EditsRecord.resolves {other ino : Nat} {before after : NtfsMount}
    (edit : NtfsVolume.EditsRecord other before.volume after.volume)
    (opens : (Volume.ntfs before).resolves ino = true) :
    (Volume.ntfs after).resolves ino = true := by
  obtain ⟨record, present, sequence⟩ := resolves_ntfs_iff.mp opens
  rw [← edit.sequence] at sequence
  refine resolves_ntfs_iff.mpr ?_
  by_cases same : mref ino = other
  · rcases edit.sameRecord with kept | ⟨old, new, -, stored, -⟩
    · exact ⟨record, by rw [same, kept, ← same, present], sequence⟩
    · exact ⟨new, by rw [same, stored], sequence⟩
  · exact ⟨record, by rw [edit.otherRecord _ same, present], sequence⟩

theorem ntfsOpLookup_issues {ino : Nat} {attr : NfsAttr}
    (found : (ntfsOpLookup config lib calls mount dirIno name).1 = .ok (ino, attr)) :
    (Volume.ntfs mount).resolves ino = true := by
  unfold ntfsOpLookup at found
  split at found
  · cases found
  split at found
  · cases found
  rename_i dirNi opened
  split at found
  · cases found
  split at found
  · cases found
    exact ntfsInodeOpen_resolves opened
  split at found
  · cases got : ntfsOpGetattr config calls .parent mount.volume
      (if (ntfsResolveParentIno calls mount dirIno dirNi).1 = 0 then fileRoot
        else (ntfsResolveParentIno calls mount dirIno dirNi).1) with
    | error status =>
        simp only [got, Except.map] at found
        cases found
    | ok parent =>
        simp only [got, Except.map] at found
        cases found
        obtain ⟨record, parentOpened, -⟩ := ntfsOpGetattr_ok got
        exact ntfsInodeOpen_resolves parentOpened
  split at found
  · cases found
  split at found
  · cases found
  split at found
  · cases found
  split at found
  · cases found
  · rename_i record childOpened
    cases found
    exact ntfsInodeOpen_resolves childOpened

theorem ntfsOpSetattr_error_ne_ok {ino : Nat} {sattr : SAttr3} {status : Nfsstat}
    (failed : (ntfsOpSetattr config calls mount ino sattr).1 = .error status) : status ≠ .ok := by
  have finishes : ∀ opened record hasParent,
      (ntfsFinishSetattr config calls opened ino record hasParent sattr).1 = .error status →
        status ≠ .ok := by
    intro opened record hasParent stopped
    unfold ntfsFinishSetattr at stopped
    simp only at stopped
    split at stopped
    · cases stopped
    · cases stopped
      decide
  unfold ntfsOpSetattr at failed
  split at failed
  · cases failed
    decide
  split at failed
  · exact finishes _ _ _ failed
  split at failed
  · cases failed
    decide
  split at failed
  · rename_i code _
    cases failed
    exact errnoToNfs3_ne_ok code
  split at failed
  · rename_i code _
    cases failed
    exact errnoToNfs3_ne_ok code
  · exact finishes _ _ _ failed

theorem ntfsOpSetattr_ok_resolves {ino : Nat} {sattr : SAttr3} {attr : NfsAttr}
    (set : (ntfsOpSetattr config calls mount ino sattr).1 = .ok attr) :
    (Volume.ntfs (ntfsOpSetattr config calls mount ino sattr).2).resolves ino = true := by
  refine NtfsVolume.EditsRecord.resolves (editsRecord_opSetattr config calls mount ino sattr) ?_
  unfold ntfsOpSetattr at set
  split at set
  · cases set
  · rename_i found
    exact ntfsInodeOpen_resolves (ntfsOpenWithParent_record found)

/-- The answer of CREATE, MKDIR and SYMLINK names the record that was made. -/
theorem ntfsFinishCreate_issues {dirNi : NtfsRecord} {pre : WccPre} {kind : NtfsKind}
    {ucs : UcsName} {dir : Nat} {made : Nat × NtfsVolume} {finish : NtfsRecord → NtfsRecord}
    (created : ntfsCreate calls mount.volume dir ucs kind = .ok made)
    (granted : (ntfsFinishCreate config calls mount dirIno dirNi pre made finish).1.status = .ok) :
    (Volume.ntfs (ntfsFinishCreate config calls mount dirIno dirNi pre made finish).2).resolves
      (ntfsFinishCreate config calls mount dirIno dirNi pre made finish).1.ino = true := by
  obtain ⟨-, -, fresh, records, -, -, -, -, -⟩ := ntfsCreate_ok created
  obtain ⟨-, -, plain, -⟩ := ntfsNewRecord_ok fresh
  have number : (ntfsFinishCreate config calls mount dirIno dirNi pre made finish).1.ino =
      made.1 := by
    unfold ntfsFinishCreate at granted ⊢
    simp only at granted ⊢
    split
    · rename_i stopped
      rw [if_pos stopped] at granted
      cases granted
    rename_i closed
    rw [if_neg closed] at granted
    split
    · rename_i stopped
      rw [if_pos stopped] at granted
      cases granted
    · rfl
  refine resolves_ntfs_iff.mpr ?_
  rw [number, ntfsFinishCreate_volume, mref_of_lt plain, records]
  refine ⟨finish (freshRecord calls kind dir ucs), ?_, .inl (mseqno_of_lt plain)⟩
  simp

theorem ntfsOpCreate_issues {mode : CreateMode} {sattr : Option SAttr3}
    (granted : (ntfsOpCreate config lib calls mount dirIno name mode sattr).1.status = .ok) :
    (Volume.ntfs (ntfsOpCreate config lib calls mount dirIno name mode sattr).2).resolves
      (ntfsOpCreate config lib calls mount dirIno name mode sattr).1.ino = true := by
  unfold ntfsOpCreate at granted ⊢
  split
  · rename_i closed
    simp only [closed] at granted
    cases granted
  rename_i dirNi opened
  simp only [opened] at granted
  split
  · rename_i notDir
    rw [if_pos notDir] at granted
    cases granted
  rename_i directory
  rw [if_neg directory] at granted
  split
  · rename_i illegal
    simp only [illegal] at granted
    exact absurd granted (ntfsUtf8ToUcs_error_ne_ok illegal)
  rename_i ucs legal
  simp only [legal] at granted
  split
  · rename_i existing found
    simp only [found] at granted
    split
    · rename_i guarded
      rw [if_pos guarded] at granted
      cases granted
    rename_i unchecked
    rw [if_neg unchecked] at granted
    unfold ntfsCreateExisting at granted ⊢
    cases sattr with
    | none =>
        simp only at granted ⊢
        split at granted
        · rename_i failed
          exact absurd granted (ntfsOpGetattr_error_ne_ok failed)
        · rename_i attr got
          obtain ⟨record, existingOpened, -⟩ := ntfsOpGetattr_ok got
          exact ntfsInodeOpen_resolves existingOpened
    | some settings =>
        simp only at granted ⊢
        split at granted
        · rename_i failed
          exact absurd granted (ntfsOpSetattr_error_ne_ok failed)
        · rename_i attr set
          exact ntfsOpSetattr_ok_resolves set
  rename_i code missing
  simp only [missing] at granted
  split
  · rename_i other
    rw [if_pos other] at granted
    exact absurd granted (errnoToNfs3_ne_ok code)
  rename_i notFound
  rw [if_neg notFound] at granted
  split
  · rename_i failed stopped
    simp only [stopped] at granted
    exact absurd granted (errnoToNfs3_ne_ok failed)
  · rename_i made created
    simp only [created] at granted
    exact ntfsFinishCreate_issues created granted

theorem ntfsOpMkdir_issues {sattr : Option SAttr3}
    (granted : (ntfsOpMkdir config lib calls mount dirIno name sattr).1.status = .ok) :
    (Volume.ntfs (ntfsOpMkdir config lib calls mount dirIno name sattr).2).resolves
      (ntfsOpMkdir config lib calls mount dirIno name sattr).1.ino = true := by
  unfold ntfsOpMkdir at granted ⊢
  split
  · rename_i closed
    simp only [closed] at granted
    cases granted
  rename_i dirNi opened
  simp only [opened] at granted
  split
  · rename_i notDir
    rw [if_pos notDir] at granted
    cases granted
  rename_i directory
  rw [if_neg directory] at granted
  split
  · rename_i illegal
    simp only [illegal] at granted
    exact absurd granted (ntfsUtf8ToUcs_error_ne_ok illegal)
  rename_i ucs legal
  simp only [legal] at granted
  split
  · rename_i existing found
    simp only [found] at granted
    cases granted
  rename_i code missing
  simp only [missing] at granted
  split
  · rename_i failed stopped
    simp only [stopped] at granted
    exact absurd granted (errnoToNfs3_ne_ok failed)
  · rename_i made created
    simp only [created] at granted
    exact ntfsFinishCreate_issues created granted

theorem ntfsOpSymlink_issues {sattr : Option SAttr3} {target : Name}
    (granted : (ntfsOpSymlink config lib calls mount dirIno name sattr target).1.status = .ok) :
    (Volume.ntfs (ntfsOpSymlink config lib calls mount dirIno name sattr target).2).resolves
      (ntfsOpSymlink config lib calls mount dirIno name sattr target).1.ino = true := by
  unfold ntfsOpSymlink at granted ⊢
  split
  · rename_i empty
    rw [if_pos empty] at granted
    cases granted
  rename_i nonempty
  rw [if_neg nonempty] at granted
  split
  · rename_i closed
    simp only [closed] at granted
    cases granted
  rename_i dirNi opened
  simp only [opened] at granted
  split
  · rename_i notDir
    rw [if_pos notDir] at granted
    cases granted
  rename_i directory
  rw [if_neg directory] at granted
  split
  · rename_i illegal
    simp only [illegal] at granted
    exact absurd granted (ntfsUtf8ToUcs_error_ne_ok illegal)
  rename_i ucs legal
  simp only [legal] at granted
  split
  · rename_i existing found
    simp only [found] at granted
    cases granted
  rename_i code missing
  simp only [missing] at granted
  split
  · rename_i unconverted
    simp only [unconverted] at granted
    cases granted
  rename_i converted
  simp only [converted] at granted
  split
  · rename_i failed stopped
    simp only [stopped] at granted
    exact absurd granted (errnoToNfs3_ne_ok failed)
  · rename_i made created
    simp only [created] at granted
    exact ntfsFinishCreate_issues created granted

end Ntfs

section Issue

variable {server : Server} {volume : Volume}

theorem createdReply_handles {result : ObjResult} {handle : Handle}
    (issued : handle ∈ (createdReply result).handles) :
    result.status = .ok ∧ handle = xdrPutFh result.ino := by
  unfold createdReply Reply.handles at issued
  simp only at issued
  split at issued
  · rename_i granted
    refine ⟨granted, ?_⟩
    simpa using issued
  · cases issued

/-- A handle that a reply gives out is that of an object which is there when the request is
done; the one from MNT is the root's. -/
theorem reply_issues (exchange : Exchange) {handle : Handle}
    (issued : handle ∈ (server.reply volume exchange).handles) :
    ∃ ino, handle = xdrPutFh ino ∧
      ((server.step volume exchange).resolves ino = true ∨ ino = fsRootIno volume) := by
  obtain ⟨request, calls⟩ := exchange
  unfold Server.reply at issued
  unfold Server.step
  cases request with
  | lookup dir name =>
      simp only [handleProc] at issued ⊢
      split at issued
      · cases issued
      rename_i dirIno decoded
      simp only [handleLookup, Reply.handles] at issued ⊢
      cases found : (fsLookup server calls volume dirIno name).1 with
      | error status =>
          rw [found] at issued
          cases issued
      | ok child =>
          rw [found] at issued
          refine ⟨child.1, by simpa [Except.toOption] using issued, .inl ?_⟩
          cases volume with
          | ntfs mount =>
              have opens := ntfsOpLookup_issues found
              have same := ntfsOpLookup_volume server.config server.lib calls.ntfs mount dirIno name
              obtain ⟨record, present, sequence⟩ := resolves_ntfs_iff.mp opens
              rw [← same] at present sequence
              exact resolves_ntfs_iff.mpr ⟨record, present, sequence⟩
          | ext volume =>
              exact (extOpLookup_issues found).resolves
  | create dir name how =>
      simp only [handleProc] at issued ⊢
      split at issued
      · cases issued
      rename_i dirIno decoded
      simp only
      obtain ⟨granted, rfl⟩ := createdReply_handles issued
      refine ⟨_, rfl, .inl ?_⟩
      cases volume with
      | ntfs mount => exact ntfsOpCreate_issues granted
      | ext volume => exact (extOpCreate_issues granted).resolves
  | mkdir dir name sattr =>
      simp only [handleProc] at issued ⊢
      split at issued
      · cases issued
      rename_i dirIno decoded
      simp only
      obtain ⟨granted, rfl⟩ := createdReply_handles issued
      refine ⟨_, rfl, .inl ?_⟩
      cases volume with
      | ntfs mount => exact ntfsOpMkdir_issues granted
      | ext volume => exact (extOpMkdir_issues granted).resolves
  | symlink dir name sattr target =>
      simp only [handleProc] at issued ⊢
      split at issued
      · cases issued
      rename_i dirIno decoded
      simp only
      obtain ⟨granted, rfl⟩ := createdReply_handles issued
      refine ⟨_, rfl, .inl ?_⟩
      cases volume with
      | ntfs mount => exact ntfsOpSymlink_issues granted
      | ext volume => exact (extOpSymlink_issues granted).resolves
  | readdirplus dir cookie cverf dircount maxcount =>
      simp only [handleProc] at issued ⊢
      split at issued
      · cases issued
      rename_i dirIno decoded
      simp only [handleReaddirplus_volume]
      unfold handleReaddirplus at issued
      split at issued
      · cases issued
      rename_i list attr left listed
      rw [listed]
      split at issued
      · cases issued
      simp only [Reply.handles, List.mem_filterMap, List.mem_map] at issued
      obtain ⟨entry, ⟨item, -, rfl⟩, given⟩ := issued
      simp only [toEntryPlus3, Option.map_eq_some_iff] at given
      obtain ⟨got, shown, rfl⟩ := given
      refine ⟨item.1.fileid, rfl, .inl ?_⟩
      unfold entryAttr at shown
      cases left with
      | ntfs mount =>
          cases opened : ntfsOpGetattr server.config (calls.ntfs.turn item.2) .child mount.volume
              item.1.fileid with
          | error status =>
              simp only [fsGetattr, Calls.turn, opened] at shown
              cases shown
          | ok attr =>
              obtain ⟨record, child, -⟩ := ntfsOpGetattr_ok opened
              exact ntfsInodeOpen_resolves child
      | ext volume =>
          cases opened : extOpGetattr server.config ((calls.ext.turn item.2).fault
              (.readValid .child)) volume item.1.fileid with
          | error status =>
              simp only [fsGetattr, Calls.turn, opened] at shown
              cases shown
          | ok attr => exact (extReadValidInode_valid (extOpGetattr_ok opened).1).resolves
  | mnt path =>
      simp only [handleProc, handleMnt] at issued
      split at issued
      · exact ⟨fsRootIno volume, by simpa [Reply.handles] using issued, .inr rfl⟩
      · cases issued
  | null => cases issued
  | umnt path => cases issued
  | umntall => cases issued
  | getattr fh =>
      simp only [handleProc] at issued
      split at issued <;> cases issued
  | setattr fh sattr guard =>
      simp only [handleProc, handleSetattr] at issued
      split at issued
      · cases issued
      · split at issued
        · cases issued
        · split at issued <;> cases issued
  | access fh wanted =>
      simp only [handleProc, handleAccess] at issued
      split at issued
      · cases issued
      · split at issued <;> cases issued
  | readlink fh =>
      simp only [handleProc] at issued
      split at issued <;> cases issued
  | read fh offset count =>
      simp only [handleProc] at issued
      split at issued <;> cases issued
  | write fh offset count stable data =>
      simp only [handleProc] at issued
      split at issued <;> cases issued
  | mknod dir name =>
      simp only [handleProc] at issued
      split at issued <;> cases issued
  | remove dir name =>
      simp only [handleProc] at issued
      split at issued <;> cases issued
  | rmdir dir name =>
      simp only [handleProc] at issued
      split at issued <;> cases issued
  | rename fromDir fromName toDir toName =>
      simp only [handleProc] at issued
      split at issued <;> cases issued
  | link fh dir name =>
      simp only [handleProc] at issued
      split at issued <;> cases issued
  | readdir dir cookie cverf count =>
      simp only [handleProc, handleReaddir] at issued
      split at issued
      · cases issued
      · split at issued
        · cases issued
        · split at issued <;> cases issued
  | fsstat fh =>
      simp only [handleProc] at issued
      split at issued <;> cases issued
  | fsinfo fh =>
      simp only [handleProc, handleInfo] at issued
      split at issued
      · cases issued
      · split at issued <;> cases issued
  | pathconf fh =>
      simp only [handleProc, handleInfo] at issued
      split at issued
      · cases issued
      · split at issued <;> cases issued
  | commit fh offset count =>
      simp only [handleProc] at issued
      split at issued <;> cases issued

end Issue

end Rufux.Mountd
