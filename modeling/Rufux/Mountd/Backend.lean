import Rufux.Mountd.RpcReply

/-!
The two backends as answers to the calls of the handlers. None of their operations
reports the status that is kept for malformed handles.
-/

namespace Rufux.Mountd

open Rufux.Library

/-- A status that an operation reports when it fails. -/
def Nfsstat.IsFailure (status : Nfsstat) : Prop := status ≠ .ok ∧ status ≠ .badhandle

theorem errnoToNfs3_failure (code : Errno) : (errnoToNfs3 code).IsFailure := by
  cases code <;> exact ⟨nofun, nofun⟩

theorem extErrToNfs3_failure (code : Errcode) : (extErrToNfs3 code).IsFailure := by
  cases code with
  | errno code => exact errnoToNfs3_failure code
  | _ => exact ⟨nofun, nofun⟩

section Ext

variable {config : Config} {calls : ExtCalls} {volume : ExtVolume} {status : Nfsstat}

theorem extReadValidInode_failure {fault : Option Errcode} {ino : Nat}
    (failed : extReadValidInode fault volume ino = .error status) : status.IsFailure := by
  unfold extReadValidInode at failed
  split at failed
  · cases failed
    exact ⟨nofun, nofun⟩
  split at failed
  · cases failed
    exact ⟨nofun, nofun⟩
  split at failed
  · cases failed
    exact extErrToNfs3_failure _
  split at failed
  · cases failed
    exact ⟨nofun, nofun⟩
  · cases failed

theorem extOpGetattr_failure {fault : Option Errcode} {ino : Nat}
    (failed : extOpGetattr config fault volume ino = .error status) : status.IsFailure := by
  unfold extOpGetattr at failed
  split at failed <;> rename_i invalid
  · cases failed
    exact extReadValidInode_failure invalid
  · cases failed

theorem extSetattrMeta_failure {ino : Nat} {inode : ExtInode} {sattr : SAttr3}
    (failed : (extSetattrMeta config calls volume ino inode sattr).1 = .error status) :
    status.IsFailure := by
  unfold extSetattrMeta at failed
  dsimp only at failed
  split at failed
  · cases failed
    exact extErrToNfs3_failure _
  · cases failed

theorem extOpSetattr_failure {ino : Nat} {sattr : SAttr3}
    (failed : (extOpSetattr config calls volume ino sattr).1 = .error status) :
    status.IsFailure := by
  unfold extOpSetattr at failed
  dsimp only at failed
  repeat' split at failed
  all_goals first
    | exact extSetattrMeta_failure failed
    | cases failed
      first
        | exact extErrToNfs3_failure _
        | exact extReadValidInode_failure ‹_›
        | exact ⟨by rintro ⟨⟩, by rintro ⟨⟩⟩

theorem extOpLookup_failure {dir : Nat} {name : Name}
    (failed : extOpLookup config calls volume dir name = .error status) : status.IsFailure := by
  unfold extOpLookup at failed
  repeat' split at failed
  all_goals cases failed
  all_goals first
    | exact extErrToNfs3_failure _
    | exact extReadValidInode_failure ‹_›
    | exact ⟨nofun, nofun⟩

theorem extOpReadlink_failure {ino : Nat}
    (failed : (extOpReadlink config calls volume ino).1 = .error status) : status.IsFailure := by
  unfold extOpReadlink at failed
  dsimp only at failed
  repeat' split at failed
  all_goals cases failed
  all_goals first
    | exact extErrToNfs3_failure _
    | exact extReadValidInode_failure ‹_›
    | exact ⟨nofun, nofun⟩

theorem extOpReaddir_failure {dir : Nat}
    (failed : (extOpReaddir config calls volume dir).1 = .error status) : status.IsFailure := by
  unfold extOpReaddir at failed
  dsimp only at failed
  repeat' split at failed
  all_goals cases failed
  all_goals first
    | exact extErrToNfs3_failure _
    | exact extReadValidInode_failure ‹_›
    | exact ⟨nofun, nofun⟩

theorem extOpFsstat_failure {ino : Nat}
    (failed : (extOpFsstat config calls volume ino).1 = .error status) : status.IsFailure := by
  unfold extOpFsstat at failed
  split at failed
  · cases failed
    exact ⟨nofun, nofun⟩
  · cases failed

theorem extReadLoop_failure {bytes : List UInt8} {fuel turn pos left : Nat}
    (failed : extReadLoop calls bytes fuel turn pos left = .error status) : status.IsFailure := by
  induction fuel generalizing turn pos left with
  | zero => cases failed
  | succ fuel ih =>
      rw [extReadLoop] at failed
      split at failed
      · cases failed
      split at failed
      · cases failed
        exact extErrToNfs3_failure _
      dsimp only at failed
      split at failed
      · cases failed
      · cases rest : extReadLoop calls bytes fuel (turn + 1) _ _ with
        | ok data =>
            rw [rest] at failed
            cases failed
        | error status =>
            rw [rest] at failed
            cases failed
            exact ih rest

theorem extWriteLoop_failure {ino fuel turn pos : Nat} {data : List UInt8}
    (failed : (extWriteLoop calls ino fuel turn pos data volume).1 = some status) :
    status.IsFailure := by
  induction fuel generalizing turn pos data volume with
  | zero => cases failed
  | succ fuel ih =>
      rw [extWriteLoop] at failed
      split at failed
      · cases failed
      dsimp only at failed
      split at failed
      · cases failed
        exact extErrToNfs3_failure _
      split at failed
      · cases failed
        exact ⟨nofun, nofun⟩
      · exact ih failed

variable (config calls volume)

theorem extOpRead_status (ino offset count : Nat) :
    (extOpRead config calls volume ino offset count).status ≠ .badhandle := by
  unfold extOpRead
  dsimp only
  split
  · exact (extReadValidInode_failure ‹_›).2
  split
  · exact nofun
  split
  · exact nofun
  split
  · exact nofun
  split
  · exact (extErrToNfs3_failure _).2
  split
  · exact (extErrToNfs3_failure _).2
  split <;> rename_i loop
  · exact (extReadLoop_failure loop).2
  · exact nofun

theorem extOpWrite_status (ino offset : Nat) (data : List UInt8) (stable : StableHow) :
    (extOpWrite config calls volume ino offset data stable).1.status ≠ .badhandle := by
  unfold extOpWrite
  dsimp only
  split
  · exact (extReadValidInode_failure ‹_›).2
  split
  · exact nofun
  split
  · exact nofun
  split
  · exact (extErrToNfs3_failure _).2
  split
  · exact (extErrToNfs3_failure _).2
  split <;> rename_i loop
  · exact (extWriteLoop_failure (congrArg Prod.fst loop)).2
  split
  · exact (extErrToNfs3_failure _).2
  split
  · exact (extErrToNfs3_failure _).2
  · exact nofun

theorem extCreateExisting_status (dir existing : Nat) (pre : WccPre) (sattr : Option SAttr3) :
    (extCreateExisting config calls volume dir existing pre sattr).1.status ≠ .badhandle := by
  unfold extCreateExisting
  cases sattr with
  | none =>
      cases applied : extOpGetattr config (calls.fault (.readValid .child)) volume existing with
      | error status => exact (extOpGetattr_failure applied).2
      | ok attr => exact nofun
  | some sattr =>
      dsimp only
      cases applied : (extOpSetattr config calls.inner volume existing sattr).1 with
      | error status => exact (extOpSetattr_failure applied).2
      | ok attr => exact nofun

theorem extCreateNew_status (dir : Nat) (name : Name) (dirAttr : NfsAttr)
    (sattr : Option SAttr3) :
    (extCreateNew config calls volume dir name dirAttr sattr).1.status ≠ .badhandle := by
  unfold extCreateNew
  split
  · exact (extErrToNfs3_failure _).2
  dsimp only
  split
  · exact (extErrToNfs3_failure _).2
  split
  · exact (extErrToNfs3_failure _).2
  · exact nofun

theorem extOpCreate_status (dir : Nat) (name : Name) (mode : CreateMode)
    (sattr : Option SAttr3) :
    (extOpCreate config calls volume dir name mode sattr).1.status ≠ .badhandle := by
  unfold extOpCreate
  repeat' split
  all_goals first
    | exact (extReadValidInode_failure ‹_›).2
    | exact extCreateExisting_status config calls volume _ _ _ _
    | exact extCreateNew_status config calls volume _ _ _ _
    | exact nofun

theorem extOpMkdir_status (dir : Nat) (name : Name) (sattr : Option SAttr3) :
    (extOpMkdir config calls volume dir name sattr).1.status ≠ .badhandle := by
  unfold extOpMkdir
  repeat' split
  all_goals first
    | exact (extErrToNfs3_failure _).2
    | exact (extReadValidInode_failure ‹_›).2
    | exact nofun

theorem extOpSymlink_status (dir : Nat) (name : Name) (sattr : Option SAttr3) (target : Name) :
    (extOpSymlink config calls volume dir name sattr target).1.status ≠ .badhandle := by
  unfold extOpSymlink
  repeat' split
  all_goals first
    | exact (extErrToNfs3_failure _).2
    | exact (extReadValidInode_failure ‹_›).2
    | exact nofun

theorem extOpRemove_status (dir : Nat) (name : Name) :
    (extOpRemove config calls volume dir name).1.status ≠ .badhandle := by
  unfold extOpRemove
  repeat' split
  all_goals first
    | exact (extErrToNfs3_failure _).2
    | exact (extReadValidInode_failure ‹_›).2
    | exact nofun

theorem extOpRmdir_status (dir : Nat) (name : Name) :
    (extOpRmdir config calls volume dir name).1.status ≠ .badhandle := by
  unfold extOpRmdir
  repeat' split
  all_goals first
    | exact (extErrToNfs3_failure _).2
    | exact (extReadValidInode_failure ‹_›).2
    | exact nofun

theorem extMoveEntry_status (fromDir : Nat) (fromName : Name) (toDir : Nat) (toName : Name)
    (ino : Nat) (inode : ExtInode) (fromPre toPre : WccPre) :
    (extMoveEntry config calls volume fromDir fromName toDir toName ino inode fromPre
      toPre).1.status ≠ .badhandle := by
  unfold extMoveEntry
  dsimp only
  split
  · exact (extErrToNfs3_failure _).2
  split
  · exact (extErrToNfs3_failure _).2
  · exact nofun

theorem extRemoveTarget_status (toDir : Nat) (toName : Name) (toIsDir : Bool) :
    (extRemoveTarget config calls volume toDir toName toIsDir).1.status ≠ .badhandle := by
  unfold extRemoveTarget
  split
  · exact extOpRmdir_status config calls.inner volume toDir toName
  · exact extOpRemove_status config calls.inner volume toDir toName

theorem extOpRename_status (fromDir : Nat) (fromName : Name) (toDir : Nat) (toName : Name) :
    (extOpRename config calls volume fromDir fromName toDir toName).1.status ≠ .badhandle := by
  unfold extOpRename
  dsimp only
  split
  · repeat' split
    all_goals first
      | exact extMoveEntry_status config calls _ _ _ _ _ _ _ _ _
      | exact (extErrToNfs3_failure _).2
      | exact (extReadValidInode_failure ‹_›).2
      | exact extRemoveTarget_status config calls volume _ _ _
      | exact nofun
  · exact nofun

theorem extOpLink_status (ino dir : Nat) (name : Name) :
    (extOpLink config calls volume ino dir name).1.status ≠ .badhandle := by
  unfold extOpLink
  repeat' split
  all_goals first
    | exact (extErrToNfs3_failure _).2
    | exact (extReadValidInode_failure ‹_›).2
    | exact nofun

theorem extOpCommit_status (ino : Nat) :
    (extOpCommit config calls volume ino).1.status ≠ .badhandle := by
  unfold extOpCommit
  repeat' split
  all_goals first
    | exact (extErrToNfs3_failure _).2
    | exact nofun

end Ext

section Ntfs

variable {config : Config} {lib : NtfsLib} {calls : NtfsCalls} {mount : NtfsMount}
  {status : Nfsstat}

theorem ntfsUtf8ToUcs_failure {name : Name} (failed : ntfsUtf8ToUcs lib name = .error status) :
    status.IsFailure := by
  unfold ntfsUtf8ToUcs at failed
  repeat' split at failed
  all_goals cases failed
  all_goals exact ⟨nofun, nofun⟩

theorem ntfsOpGetattr_failure {role : NtfsRole} {volume : NtfsVolume} {ino : Nat}
    (failed : ntfsOpGetattr config calls role volume ino = .error status) : status.IsFailure := by
  unfold ntfsOpGetattr at failed
  split at failed
  · cases failed
    split
    · exact ⟨nofun, nofun⟩
    · exact errnoToNfs3_failure _
  · cases failed

theorem ntfsFinishSetattr_failure {ino : Nat} {record : NtfsRecord} {hasParent : Bool}
    {sattr : SAttr3}
    (failed : (ntfsFinishSetattr config calls mount ino record hasParent sattr).1 =
      .error status) : status.IsFailure := by
  unfold ntfsFinishSetattr at failed
  dsimp only at failed
  split at failed
  · cases failed
  · cases failed
    exact ⟨nofun, nofun⟩

theorem ntfsOpSetattr_failure {ino : Nat} {sattr : SAttr3}
    (failed : (ntfsOpSetattr config calls mount ino sattr).1 = .error status) :
    status.IsFailure := by
  unfold ntfsOpSetattr at failed
  repeat' split at failed
  all_goals first
    | exact ntfsFinishSetattr_failure failed
    | cases failed
      first
        | exact errnoToNfs3_failure _
        | exact ⟨by rintro ⟨⟩, by rintro ⟨⟩⟩

theorem ntfsOpLookup_failure {dirIno : Nat} {name : Name}
    (failed : (ntfsOpLookup config lib calls mount dirIno name).1 = .error status) :
    status.IsFailure := by
  unfold ntfsOpLookup at failed
  split at failed
  · cases failed
    exact ⟨nofun, nofun⟩
  split at failed
  · cases failed
    exact ⟨nofun, nofun⟩
  split at failed
  · cases failed
    exact ⟨nofun, nofun⟩
  split at failed
  · cases failed
  split at failed
  · dsimp only at failed
    generalize attempt : ntfsOpGetattr config calls .parent mount.volume _ = found at failed
    cases found with
    | error code =>
        cases failed
        exact ntfsOpGetattr_failure attempt
    | ok attr => cases failed
  split at failed <;> rename_i converted
  · cases failed
    exact ntfsUtf8ToUcs_failure converted
  split at failed
  · cases failed
    exact errnoToNfs3_failure _
  split at failed
  · cases failed
    exact ⟨nofun, nofun⟩
  split at failed
  · cases failed
    exact errnoToNfs3_failure _
  · cases failed

theorem ntfsReadSymlinkStr_failure {fault : Option Errno} {record : NtfsRecord}
    (failed : ntfsReadSymlinkStr fault record = .error status) : status.IsFailure := by
  unfold ntfsReadSymlinkStr at failed
  repeat' split at failed
  all_goals cases failed
  all_goals first
    | exact errnoToNfs3_failure _
    | exact ⟨nofun, nofun⟩

theorem ntfsOpReadlink_failure {volume : NtfsVolume} {ino : Nat}
    (failed : (ntfsOpReadlink config calls volume ino).1 = .error status) : status.IsFailure := by
  unfold ntfsOpReadlink at failed
  split at failed
  · cases failed
    exact ⟨nofun, nofun⟩
  · dsimp only at failed
    split at failed
    · cases failed
      exact ⟨nofun, nofun⟩
    · exact ntfsReadSymlinkStr_failure failed

theorem ntfsOpReaddir_failure {dirIno : Nat}
    (failed : (ntfsOpReaddir config lib calls mount dirIno).1 = .error status) :
    status.IsFailure := by
  unfold ntfsOpReaddir at failed
  dsimp only at failed
  repeat' split at failed
  all_goals cases failed
  all_goals first
    | exact errnoToNfs3_failure _
    | exact ⟨nofun, nofun⟩

theorem ntfsOpFsstat_failure {volume : NtfsVolume} {ino : Nat}
    (failed : (ntfsOpFsstat config calls volume ino).1 = .error status) : status.IsFailure := by
  unfold ntfsOpFsstat at failed
  split at failed
  · cases failed
    exact ⟨nofun, nofun⟩
  · cases failed

theorem ntfsReadLoop_failure {bytes : List UInt8} {fuel turn pos left : Nat}
    (failed : ntfsReadLoop calls bytes fuel turn pos left = .error status) : status.IsFailure := by
  induction fuel generalizing turn pos left with
  | zero => cases failed
  | succ fuel ih =>
      rw [ntfsReadLoop] at failed
      split at failed
      · cases failed
      split at failed
      · cases failed
        exact errnoToNfs3_failure _
      dsimp only at failed
      split at failed
      · cases failed
      · cases rest : ntfsReadLoop calls bytes fuel (turn + 1) _ _ with
        | ok data =>
            rw [rest] at failed
            cases failed
        | error status =>
            rw [rest] at failed
            cases failed
            exact ih rest

theorem ntfsWriteLoop_failure {fuel turn pos : Nat} {data : List UInt8} {record : NtfsRecord}
    (failed : (ntfsWriteLoop calls fuel turn pos data record).1 = some status) :
    status.IsFailure := by
  induction fuel generalizing turn pos data record with
  | zero => cases failed
  | succ fuel ih =>
      rw [ntfsWriteLoop] at failed
      split at failed
      · cases failed
      dsimp only at failed
      split at failed
      · cases failed
        exact errnoToNfs3_failure _
      split at failed
      · cases failed
        exact ⟨nofun, nofun⟩
      · exact ih failed

variable (config lib calls mount)

theorem ntfsOpRead_status (volume : NtfsVolume) (ino offset count : Nat) :
    (ntfsOpRead config calls volume ino offset count).status ≠ .badhandle := by
  unfold ntfsOpRead
  dsimp only
  split
  · exact nofun
  split
  · exact nofun
  split
  · exact nofun
  split
  · exact (errnoToNfs3_failure _).2
  split
  · exact nofun
  split <;> rename_i loop
  · exact (ntfsReadLoop_failure loop).2
  · exact nofun

theorem ntfsFinishWrite_status (hasParent : Bool) (stable : StableHow) :
    (ntfsFinishWrite calls mount hasParent stable).1 ≠ .badhandle := by
  unfold ntfsFinishWrite
  split <;> exact nofun

theorem ntfsOpWrite_status (ino offset : Nat) (data : List UInt8) (stable : StableHow) :
    (ntfsOpWrite config calls mount ino offset data stable).1.status ≠ .badhandle := by
  unfold ntfsOpWrite
  dsimp only
  split
  · exact nofun
  split
  · exact nofun
  split
  · exact nofun
  split
  · exact (errnoToNfs3_failure _).2
  split
  · exact (errnoToNfs3_failure _).2
  split <;> rename_i loop
  · exact (ntfsWriteLoop_failure (congrArg Prod.fst loop)).2
  · exact ntfsFinishWrite_status calls _ _ _

theorem ntfsFinishCreate_status (dirIno : Nat) (dirNi : NtfsRecord) (pre : WccPre)
    (made : Nat × NtfsVolume) (finish : NtfsRecord → NtfsRecord) :
    (ntfsFinishCreate config calls mount dirIno dirNi pre made finish).1.status ≠
      .badhandle := by
  unfold ntfsFinishCreate
  dsimp only
  split
  · exact nofun
  split
  · exact nofun
  · exact nofun

theorem ntfsCreateExisting_status (dirIno existing : Nat) (pre : WccPre)
    (sattr : Option SAttr3) :
    (ntfsCreateExisting config calls mount dirIno existing pre sattr).1.status ≠
      .badhandle := by
  unfold ntfsCreateExisting
  cases sattr with
  | none =>
      dsimp only
      cases applied : ntfsOpGetattr config calls .child (mount.setParent existing dirIno).volume
        existing with
      | error status => exact (ntfsOpGetattr_failure applied).2
      | ok attr => exact nofun
  | some sattr =>
      dsimp only
      cases applied : (ntfsOpSetattr config (calls.within .child)
        (mount.setParent existing dirIno) existing sattr).1 with
      | error status => exact (ntfsOpSetattr_failure applied).2
      | ok attr => exact nofun

theorem ntfsOpCreate_status (dirIno : Nat) (name : Name) (mode : CreateMode)
    (sattr : Option SAttr3) :
    (ntfsOpCreate config lib calls mount dirIno name mode sattr).1.status ≠ .badhandle := by
  unfold ntfsOpCreate
  dsimp only
  split
  · exact nofun
  split
  · exact nofun
  split <;> rename_i converted
  · exact (ntfsUtf8ToUcs_failure converted).2
  split
  · split
    · exact nofun
    · exact ntfsCreateExisting_status config calls mount _ _ _ _
  split
  · exact (errnoToNfs3_failure _).2
  split
  · exact (errnoToNfs3_failure _).2
  · exact ntfsFinishCreate_status config calls mount _ _ _ _ _

theorem ntfsOpMkdir_status (dirIno : Nat) (name : Name) (sattr : Option SAttr3) :
    (ntfsOpMkdir config lib calls mount dirIno name sattr).1.status ≠ .badhandle := by
  unfold ntfsOpMkdir
  dsimp only
  split
  · exact nofun
  split
  · exact nofun
  split <;> rename_i converted
  · exact (ntfsUtf8ToUcs_failure converted).2
  split
  · exact nofun
  split
  · exact (errnoToNfs3_failure _).2
  · exact ntfsFinishCreate_status config calls mount _ _ _ _ _

theorem ntfsOpSymlink_status (dirIno : Nat) (name : Name) (sattr : Option SAttr3)
    (target : Name) :
    (ntfsOpSymlink config lib calls mount dirIno name sattr target).1.status ≠ .badhandle := by
  unfold ntfsOpSymlink
  dsimp only
  split
  · exact nofun
  split
  · exact nofun
  split
  · exact nofun
  split <;> rename_i converted
  · exact (ntfsUtf8ToUcs_failure converted).2
  split
  · exact nofun
  split
  · exact nofun
  split
  · exact (errnoToNfs3_failure _).2
  · exact ntfsFinishCreate_status config calls mount _ _ _ _ _

theorem ntfsOpUnlinkCommon_status (dirIno : Nat) (name : Name) (expectDir : Bool) :
    (ntfsOpUnlinkCommon config lib calls mount dirIno name expectDir).1.status ≠
      .badhandle := by
  unfold ntfsOpUnlinkCommon
  dsimp only
  split
  · exact nofun
  split
  · exact nofun
  split <;> rename_i converted
  · exact (ntfsUtf8ToUcs_failure converted).2
  split
  · exact (errnoToNfs3_failure _).2
  split
  · exact nofun
  split
  · exact (errnoToNfs3_failure _).2
  split
  · exact nofun
  split
  · exact nofun
  split
  · exact (errnoToNfs3_failure _).2
  · exact nofun

theorem ntfsMoveEntry_status (fromDirIno toDirIno : Nat) (fu tu : UcsName) (fromIno : Nat)
    (fromPre toPre : WccPre) :
    (ntfsMoveEntry config calls mount fromDirIno toDirIno fu tu fromIno fromPre
      toPre).1.status ≠ .badhandle := by
  unfold ntfsMoveEntry
  dsimp only
  repeat' split
  all_goals first
    | exact (errnoToNfs3_failure _).2
    | exact nofun

theorem ntfsOpRename_status (fromDirIno : Nat) (fromName : Name) (toDirIno : Nat)
    (toName : Name) :
    (ntfsOpRename config lib calls mount fromDirIno fromName toDirIno toName).1.status ≠
      .badhandle := by
  unfold ntfsOpRename
  dsimp only
  split
  · split
    · exact nofun
    split <;> rename_i converted
    · exact (ntfsUtf8ToUcs_failure converted).2
    split <;> rename_i alsoConverted
    · exact (ntfsUtf8ToUcs_failure alsoConverted).2
    split <;> rename_i source
    · exact (ntfsOpLookup_failure (congrArg Prod.fst source)).2
    split <;> rename_i target
    · split
      · exact (ntfsOpLookup_failure (congrArg Prod.fst target)).2
      · exact ntfsMoveEntry_status config calls _ _ _ _ _ _ _ _
    split
    · exact nofun
    split
    · exact nofun
    split
    · exact nofun
    split
    · exact ntfsOpUnlinkCommon_status config lib _ _ _ _ _
    · exact ntfsMoveEntry_status config calls _ _ _ _ _ _ _ _
  · exact nofun

theorem ntfsOpLink_status (ino dirIno : Nat) (name : Name) :
    (ntfsOpLink config lib calls mount ino dirIno name).1.status ≠ .badhandle := by
  unfold ntfsOpLink
  dsimp only
  split
  · exact nofun
  split
  · exact nofun
  split <;> rename_i converted
  · exact (ntfsUtf8ToUcs_failure converted).2
  split
  · split
    · exact nofun
    split
    · exact (errnoToNfs3_failure _).2
    · exact nofun
  · exact nofun

theorem ntfsOpCommit_status (ino : Nat) :
    (ntfsOpCommit config calls mount ino).1.status ≠ .badhandle := by
  unfold ntfsOpCommit
  split
  · exact nofun
  split
  · split
    · exact nofun
    · exact nofun
  · exact nofun

end Ntfs

section Volumes

variable {server : Server} {calls : Calls} {volume : Volume} {status : Nfsstat}

theorem fsGetattr_failure {ino : Nat} (failed : fsGetattr server calls volume ino = .error status) :
    status.IsFailure := by
  cases volume with
  | ntfs mount => exact ntfsOpGetattr_failure failed
  | ext volume => exact extOpGetattr_failure failed

theorem fsSetattr_failure {ino : Nat} {sattr : SAttr3}
    (failed : (fsSetattr server calls volume ino sattr).1 = .error status) : status.IsFailure := by
  cases volume with
  | ntfs mount => exact ntfsOpSetattr_failure failed
  | ext volume => exact extOpSetattr_failure failed

theorem fsLookup_failure {dirIno : Nat} {name : Name}
    (failed : (fsLookup server calls volume dirIno name).1 = .error status) :
    status.IsFailure := by
  cases volume with
  | ntfs mount => exact ntfsOpLookup_failure failed
  | ext volume => exact extOpLookup_failure failed

theorem fsReadlink_failure {ino : Nat}
    (failed : (fsReadlink server calls volume ino).1 = .error status) : status.IsFailure := by
  cases volume with
  | ntfs mount => exact ntfsOpReadlink_failure failed
  | ext volume => exact extOpReadlink_failure failed

theorem fsReaddir_failure {dirIno : Nat}
    (failed : (fsReaddir server calls volume dirIno).1 = .error status) : status.IsFailure := by
  cases volume with
  | ntfs mount => exact ntfsOpReaddir_failure failed
  | ext volume => exact extOpReaddir_failure failed

theorem fsFsstat_failure {ino : Nat}
    (failed : (fsFsstat server calls volume ino).1 = .error status) : status.IsFailure := by
  cases volume with
  | ntfs mount => exact ntfsOpFsstat_failure failed
  | ext volume => exact extOpFsstat_failure failed

end Volumes

/-- A result whose errors are known to be failures. -/
def strict {α : Type} : (found : Except Nfsstat α) →
    (∀ status, found = .error status → status.IsFailure) → Except NfsError α
  | .ok value, _ => .ok value
  | .error status, fails => .error { status := status, failed := (fails status rfl).1 }

theorem outcomeStatus_strict {α : Type} {found : Except Nfsstat α}
    (fails : ∀ status, found = .error status → status.IsFailure) :
    outcomeStatus (strict found fails) ≠ .badhandle := by
  cases found with
  | ok value => exact nofun
  | error status => exact (fails status rfl).2

/-- The backends tell only `UNSTABLE` from the rest. -/
def stableHow : Nat → StableHow
  | 0 => .unstable
  | 1 => .dataSync
  | _ => .fileSync

/-- The volume while a call is handled, and how many calls it has answered. -/
structure Live where
  volume : Volume
  turn : Nat

def Live.after (live : Live) (volume : Volume) : Live where
  volume := volume
  turn := live.turn + 1

/-- The `fs_*` functions; each call has its own choices of the library. -/
def Server.backend (server : Server) (supply : Nat → Calls) :
    (op : FsOp) → Live → op.Result × Live
  | .rootIno, live => (fsRootIno live.volume, live.after live.volume)
  | .syncAll, live => ((), live.after (fsSyncAll (supply live.turn) live.volume))
  | .getattr ino, live =>
      (strict (fsGetattr server (supply live.turn) live.volume ino) fun _ => fsGetattr_failure,
        live.after live.volume)
  | .setattr ino sattr, live =>
      let set := fsSetattr server (supply live.turn) live.volume ino sattr
      (strict set.1 fun _ => fsSetattr_failure, live.after set.2)
  | .lookup dirIno name, live =>
      let found := fsLookup server (supply live.turn) live.volume dirIno name
      (strict found.1 fun _ => fsLookup_failure, live.after found.2)
  | .readlink ino, live =>
      let result := fsReadlink server (supply live.turn) live.volume ino
      ((strict result.1 fun _ => fsReadlink_failure, result.2), live.after live.volume)
  | .read ino offset count, live =>
      (fsRead server (supply live.turn) live.volume ino offset count, live.after live.volume)
  | .write ino offset data stable, live =>
      (fsWrite server (supply live.turn) live.volume ino offset data (stableHow stable)).map id
        live.after
  | .create dirIno name mode sattr, live =>
      (fsCreate server (supply live.turn) live.volume dirIno name mode sattr).map id live.after
  | .mkdir dirIno name sattr, live =>
      (fsMkdir server (supply live.turn) live.volume dirIno name (some sattr)).map id live.after
  | .symlink dirIno name sattr target, live =>
      (fsSymlink server (supply live.turn) live.volume dirIno name (some sattr) target).map id
        live.after
  | .remove dirIno name, live =>
      (fsRemove server (supply live.turn) live.volume dirIno name).map id live.after
  | .rmdir dirIno name, live =>
      (fsRmdir server (supply live.turn) live.volume dirIno name).map id live.after
  | .rename fromDirIno fromName toDirIno toName, live =>
      (fsRename server (supply live.turn) live.volume fromDirIno fromName toDirIno toName).map id
        live.after
  | .link ino dirIno name, live =>
      (fsLink server (supply live.turn) live.volume ino dirIno name).map id live.after
  | .readdir dirIno, live =>
      let listed := fsReaddir server (supply live.turn) live.volume dirIno
      ((strict listed.1 fun _ => fsReaddir_failure, listed.2.1), live.after listed.2.2)
  | .fsstat ino, live =>
      let result := fsFsstat server (supply live.turn) live.volume ino
      ((strict result.1 fun _ => fsFsstat_failure, result.2), live.after live.volume)
  | .commit ino, live =>
      (fsCommit server (supply live.turn) live.volume ino).map id live.after

/-- No operation of either backend reports `NFS3ERR_BADHANDLE`. -/
theorem backend_sound (server : Server) (supply : Nat → Calls) (op : FsOp) (live : Live) :
    FsSound ⟨op, (server.backend supply op live).1⟩ := by
  obtain ⟨volume, turn⟩ := live
  cases op with
  | rootIno => exact nofun
  | syncAll => exact nofun
  | getattr ino => exact outcomeStatus_strict _
  | setattr ino sattr => exact outcomeStatus_strict _
  | lookup dirIno name => exact outcomeStatus_strict _
  | readlink ino => exact outcomeStatus_strict _
  | readdir dirIno => exact outcomeStatus_strict _
  | fsstat ino => exact outcomeStatus_strict _
  | read ino offset count =>
      cases volume with
      | ntfs mount => exact ntfsOpRead_status _ _ _ _ _ _
      | ext volume => exact extOpRead_status _ _ _ _ _ _
  | write ino offset data stable =>
      cases volume with
      | ntfs mount => exact ntfsOpWrite_status _ _ _ _ _ _ _
      | ext volume => exact extOpWrite_status _ _ _ _ _ _ _
  | create dirIno name mode sattr =>
      cases volume with
      | ntfs mount => exact ntfsOpCreate_status _ _ _ _ _ _ _ _
      | ext volume => exact extOpCreate_status _ _ _ _ _ _ _
  | mkdir dirIno name sattr =>
      cases volume with
      | ntfs mount => exact ntfsOpMkdir_status _ _ _ _ _ _ _
      | ext volume => exact extOpMkdir_status _ _ _ _ _ _
  | symlink dirIno name sattr target =>
      cases volume with
      | ntfs mount => exact ntfsOpSymlink_status _ _ _ _ _ _ _ _
      | ext volume => exact extOpSymlink_status _ _ _ _ _ _ _
  | remove dirIno name =>
      cases volume with
      | ntfs mount => exact ntfsOpUnlinkCommon_status _ _ _ _ _ _ _
      | ext volume => exact extOpRemove_status _ _ _ _ _
  | rmdir dirIno name =>
      cases volume with
      | ntfs mount => exact ntfsOpUnlinkCommon_status _ _ _ _ _ _ _
      | ext volume => exact extOpRmdir_status _ _ _ _ _
  | rename fromDirIno fromName toDirIno toName =>
      cases volume with
      | ntfs mount => exact ntfsOpRename_status _ _ _ _ _ _ _ _
      | ext volume => exact extOpRename_status _ _ _ _ _ _ _
  | link ino dirIno name =>
      cases volume with
      | ntfs mount => exact ntfsOpLink_status _ _ _ _ _ _ _
      | ext volume => exact extOpLink_status _ _ _ _ _ _
  | commit ino =>
      cases volume with
      | ntfs mount => exact ntfsOpCommit_status _ _ _ _
      | ext volume => exact extOpCommit_status _ _ _ _

/-- The call was dropped, rejected by the RPC layer, or answered with
`NFS3ERR_BADHANDLE`. -/
def TurnedAway (msg : List UInt8) : Option (List UInt8) → Prop
  | none => True
  | some reply =>
      wordAt 2 reply = 1 ∨ wordAt 5 reply ≠ 0 ∨
        wordAt 3 msg = nfsProgram ∧ wordAt 6 reply = Nfsstat.badhandle.code

theorem code_eq_badhandle {status : Nfsstat} (same : status.code % 2 ^ 32 = Nfsstat.badhandle.code) :
    status = .badhandle := by
  cases status <;> first | rfl | exact absurd same (by decide)

/-- A call that is turned away has not reached the backend. -/
theorem turnedAway_silent {σ : Type} (daemon : Daemon)
    (backend : (op : FsOp) → σ → op.Result × σ)
    (sound : ∀ op before, FsSound ⟨op, (backend op before).1⟩) (state : σ) (msg : List UInt8)
    (away : TurnedAway msg ((dispatchRpcCall daemon msg).run backend state).value) :
    ((dispatchRpcCall daemon msg).run backend state).events = [] := by
  cases opened : openCall msg with
  | dropped => rw [dispatchRpcCall, opened]; rfl
  | answered reply => rw [dispatchRpcCall, opened]; rfl
  | accepted prog proc wire =>
      obtain ⟨sent, calls⟩ := dispatchRpcCall_accepted daemon backend state msg opened
      have fits := openCall_fits msg
      rw [opened] at fits
      obtain ⟨rfl, rfl, known, header⟩ := fits
      rw [sent] at away
      rw [calls]
      rcases (handleCall_answers daemon (wordAt 3 msg) (wordAt 5 msg) wire).run backend state with
        silent | ⟨⟨value, finished⟩, body, atEnd, starts⟩
      · exact silent
      have reply : closeCall wire.out.length
          ((handleCall daemon (wordAt 3 msg) (wordAt 5 msg) wire).run backend state).value =
            wordsBytes [wordAt 0 msg, 1, 0, 0, 0] ++ (wordBytes 0 ++ body) := by
        rw [← header, ← atEnd, closeCall, finished]
      rw [reply] at away
      rcases away with denied | rejected | ⟨nfs, badHandle⟩
      · have accepted : wordAt 2 (wordsBytes [wordAt 0 msg, 1, 0, 0, 0] ++ (wordBytes 0 ++ body)) =
            0 := (@wordAt_append _ (wordBytes (wordAt 0 msg) ++ wordBytes 1)) rfl 0
        rw [accepted] at denied
        cases denied
      · exact absurd (wordAt_append rfl 0) rejected
      · obtain ⟨status, rest, rfl, good⟩ := starts (by rw [nfs]; decide) fun event member => by
          obtain ⟨before, answer⟩ := CallProg.answered_of_mem backend _ _ event member
          have holds := sound event.1 before
          rwa [← answer] at holds
        have first : wordAt 6 (wordsBytes [wordAt 0 msg, 1, 0, 0, 0] ++
            (wordBytes 0 ++ (wordBytes status.code ++ rest))) = status.code % 2 ^ 32 :=
          (@wordAt_append _ (wordsBytes [wordAt 0 msg, 1, 0, 0, 0] ++ wordBytes 0)) rfl _
        exact absurd (code_eq_badhandle (first.symm.trans badHandle)) good

/-- Decoding comes before any effect: a call that is turned away has executed no operation
that changes the volume, and the volume is as it was. -/
theorem turnedAway_changes_nothing (server : Server) (supply : Nat → Calls) (daemon : Daemon)
    (live : Live) (msg : List UInt8) :
    let run := (dispatchRpcCall daemon msg).run (server.backend supply) live
    TurnedAway msg run.value →
      (∀ event ∈ run.events, event.1.mutates = false) ∧ run.state = live := by
  intro run away
  have silent := turnedAway_silent daemon (server.backend supply) (backend_sound server supply) live
    msg away
  refine ⟨?_, CallProg.run_state_of_silent _ _ _ silent⟩
  intro event member
  rw [silent] at member
  exact absurd member List.not_mem_nil

/-- A process whose `attr` holds zeros before the first use. -/
def Daemon.zeroed : Daemon where
  writeverf := List.replicate 8 0
  writeverf_length := List.length_replicate
  stack :=
    { type := 0, mode := 0, nlink := 0, uid := 0, gid := 0, size := 0, used := 0, rdev1 := 0,
      rdev2 := 0, fsid := 0, fileid := 0, atimeSec := 0, atimeNsec := 0, mtimeSec := 0,
      mtimeNsec := 0, ctimeSec := 0, ctimeNsec := 0 }

/-- The header of an NFS call and the handle of the root of an ext volume. -/
def callOnRoot (proc : Nat) : List UInt8 :=
  wordsBytes [1, 0, 2, nfsProgram, 3, proc, 0, 0, 0, 0, 8] ++ xdrPutFh extRootIno

/-- CREATE of `a`, unchecked and with no attribute set. -/
def createCallA : List UInt8 :=
  callOnRoot 8 ++ wordBytes 1 ++ [97, 0, 0, 0] ++ wordsBytes [0, 0, 0, 0, 0, 0, 0]

/-- The library cannot read the new inode back. -/
def unreadInode (_ : Nat) : Calls :=
  { Calls.quiet 20 with
    ext := { ExtCalls.quiet 20 with
      fault := fun site => if site = .readValid .child then some .other else none } }

theorem unreadCreate_malformed :
    ¬ReplyWellFormed Daemon.zeroed (Server.plain.backend unreadInode)
      { volume := .ext .fresh, turn := 0 } createCallA := by
  intro wellFormed
  have malformed : (((dispatchRpcCall Daemon.zeroed createCallA).run (Server.plain.backend unreadInode)
      { volume := .ext .fresh, turn := 0 }).value.any fun reply =>
        decide ¬(replyGrammar (wordAt 0 createCallA) (wordAt 3 createCallA) (wordAt 5 createCallA)).Whole
          reply) = true := by
    decide +kernel
  obtain ⟨reply, sent, broken⟩ := (Option.any_eq_true _ _).mp malformed
  exact of_decide_eq_true broken (wellFormed reply sent).2.2.1

/-- A CREATE that ends after the handle is garbage, and creates nothing. -/
theorem turnedAway_changes_nothing_truncated :
    let run := (dispatchRpcCall Daemon.zeroed (callOnRoot 8)).run
      (Server.plain.backend fun _ => Calls.quiet 20) { volume := .ext .fresh, turn := 0 }
    (∀ event ∈ run.events, event.1.mutates = false) ∧
      run.state = { volume := .ext .fresh, turn := 0 } := by
  refine turnedAway_changes_nothing .plain _ .zeroed _ (callOnRoot 8) (Or.inr (Or.inl ?_))
  decide

end Rufux.Mountd
