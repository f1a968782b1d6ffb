import Rufux.Mountd.Objects

/-!
Requests on a handle that opens nothing.
-/

namespace Rufux.Mountd

open Rufux.Library

/-- The number of a reference lies in the table of records. -/
def Volume.inTable (volume : Volume) (ino : Nat) : Prop :=
  match volume with
  | .ntfs mount => mref ino < mount.volume.mftRecords
  | .ext _ => True

/-- The answer to a reference that opens nothing: refused, nothing changed, and with
NFS3ERR_STALE unless another check comes first or the library fails. -/
structure Rejects (early : Prop) (calls : Calls) (volume : Volume) (ino : Nat)
    (status : Nfsstat) (after : Volume) : Prop where
  refused : status ≠ .ok
  unchanged : after = volume
  stale : ¬ early → calls.NoFault → volume.inTable ino → status = .stale

theorem Rejects.of_stale {early : Prop} {calls : Calls} {volume : Volume} {ino : Nat} :
    Rejects early calls volume ino .stale volume := ⟨by decide, rfl, fun _ _ _ => rfl⟩

theorem Rejects.of_early {early : Prop} {calls : Calls} {volume : Volume} {ino : Nat}
    {status : Nfsstat} (refused : status ≠ .ok) (first : early) :
    Rejects early calls volume ino status volume :=
  ⟨refused, rfl, fun later => absurd first later⟩

theorem Calls.NoFault.turn {calls : Calls} (quiet : calls.NoFault) (index : Nat) :
    (calls.turn index).NoFault :=
  ⟨fun site => quiet.1 (.turn index site), fun site => quiet.2 (.turn index site)⟩

section Backends

theorem extReadValidInode_none_error {volume : ExtVolume} {ino : Nat} {status : Nfsstat}
    (invalid : extReadValidInode none volume ino = .error status) : status = .stale := by
  unfold extReadValidInode ext2fsReadInode at invalid
  split at invalid
  · cases invalid
    rfl
  split at invalid
  · cases invalid
    rfl
  simp only at invalid
  split at invalid
  · cases invalid
    rfl
  · cases invalid

theorem extReadValidInode_dead {volume : ExtVolume} {ino : Nat}
    (dead : (Volume.ext volume).resolves ino = false) (fault : Option Errcode) :
    ∃ status, extReadValidInode fault volume ino = .error status ∧ status ≠ .ok ∧
      (fault = none → status = .stale) := by
  cases valid : extReadValidInode fault volume ino with
  | ok inode =>
      obtain ⟨-, -, -, -, -, rfl⟩ := extReadValidInode_ok valid
      simp [Volume.resolves, valid, Except.isOk, Except.toBool] at dead
  | error status =>
      refine ⟨status, rfl, extReadValidInode_error_ne_ok valid, ?_⟩
      rintro rfl
      exact extReadValidInode_none_error valid

theorem ntfsInodeOpen_dead {mount : NtfsMount} {ino : Nat}
    (dead : (Volume.ntfs mount).resolves ino = false) (fault : Option Errno) :
    ∃ code, ntfsInodeOpen fault mount.volume ino = .error code ∧
      (fault = none → (Volume.ntfs mount).inTable ino → code = .enoent ∨ code = .eio) := by
  cases opened : ntfsInodeOpen fault mount.volume ino with
  | ok record =>
      obtain ⟨rfl, -, -⟩ := ntfsInodeOpen_ok opened
      simp [Volume.resolves, opened, Except.isOk, Except.toBool] at dead
  | error code =>
      refine ⟨code, rfl, ?_⟩
      rintro rfl inside
      unfold ntfsInodeOpen at opened
      simp only at opened
      split at opened
      · cases opened
        exact .inl (if_pos inside)
      split at opened
      · cases opened
        exact .inr rfl
      · cases opened

theorem ntfsOpGetattr_dead (config : Config) (calls : Calls) {mount : NtfsMount} {ino : Nat}
    (dead : (Volume.ntfs mount).resolves ino = false) (early : Prop) (role : NtfsRole) :
    ∃ status, ntfsOpGetattr config calls.ntfs role mount.volume ino = .error status ∧
      Rejects early calls (.ntfs mount) ino status (.ntfs mount) := by
  obtain ⟨code, closed, known⟩ :=
    ntfsInodeOpen_dead dead (calls.ntfs.fault (.openInode role))
  refine ⟨if code = .enoent ∨ code = .eio then .stale else errnoToNfs3 code, ?_, ?_, rfl, ?_⟩
  · simp only [ntfsOpGetattr, closed]
  · split
    · decide
    · exact errnoToNfs3_ne_ok code
  · intro _ quiet inside
    exact if_pos (known (quiet.1 (.openInode role)) inside)

theorem extOpGetattr_dead (config : Config) (calls : Calls) {volume : ExtVolume} {ino : Nat}
    (dead : (Volume.ext volume).resolves ino = false) (early : Prop) (role : Role) :
    ∃ status,
      extReadValidInode (calls.ext.fault (.readValid role)) volume ino = .error status ∧
      extOpGetattr config (calls.ext.fault (.readValid role)) volume ino = .error status ∧
      Rejects early calls (.ext volume) ino status (.ext volume) := by
  obtain ⟨status, invalid, bad, stale⟩ :=
    extReadValidInode_dead dead (calls.ext.fault (.readValid role))
  refine ⟨status, invalid, by simp only [extOpGetattr, invalid], bad, rfl, ?_⟩
  intro _ quiet _
  exact stale (quiet.2 (.readValid role))

end Backends

/-- Checks that the daemon makes before it looks the handle up. -/
def CheckedFirst (server : Server) (volume : Volume) : Request → Prop
  | .mknod _ _ => True
  | .lookup _ name => name = [] ∨ (volume.isNtfs = false ∧ slashByte ∈ name)
  | .symlink _ _ _ target => target = []
  | .rename fromDir _ toDir _ => xdrGetFh fromDir = none ∨ xdrGetFh toDir = none
  | .link fh dir name =>
      xdrGetFh fh = none ∨ xdrGetFh dir = none ∨
        (volume.isNtfs = true ∧
          ((∃ dirIno, xdrGetFh dir = some dirIno ∧
              volume.isDirectory (volume.number dirIno) = false) ∨
            ∃ status, ntfsUtf8ToUcs server.lib name = .error status))
  | _ => False

section Dispatch

variable (server : Server) (calls : Calls) {volume : Volume} {ino : Nat}
  (dead : volume.resolves ino = false) (early : Prop)
include dead

theorem fsGetattr_dead : ∃ status, fsGetattr server calls volume ino = .error status ∧
    Rejects early calls volume ino status volume := by
  cases volume with
  | ntfs mount => exact ntfsOpGetattr_dead server.config calls dead early .child
  | ext volume =>
      obtain ⟨status, -, invalid, rejects⟩ := extOpGetattr_dead server.config calls dead early .child
      exact ⟨status, invalid, rejects⟩

theorem fsLookup_dead (name : Name) (first : name = [] ∨ (volume.isNtfs = false ∧ slashByte ∈ name) →
      early) : ∃ status, (fsLookup server calls volume ino name).1 = .error status ∧
    Rejects early calls volume ino status (fsLookup server calls volume ino name).2 := by
  cases volume with
  | ntfs mount =>
      obtain ⟨code, closed, -⟩ := ntfsInodeOpen_dead dead (calls.ntfs.fault (.openInode .dir))
      by_cases empty : name = []
      · refine ⟨.acces, by simp [fsLookup, ntfsOpLookup, empty], ?_⟩
        simp only [fsLookup, ntfsOpLookup, empty, if_true]
        exact .of_early (by decide) (first (.inl empty))
      · refine ⟨.stale, by simp [fsLookup, ntfsOpLookup, empty, closed], ?_⟩
        simp only [fsLookup, ntfsOpLookup, if_neg empty, closed]
        exact .of_stale
  | ext volume =>
      obtain ⟨status, invalid, -, rejects⟩ :=
        extOpGetattr_dead server.config calls dead early .dir
      by_cases illegal : name = [] ∨ slashByte ∈ name
      · refine ⟨.inval, by simp [fsLookup, extOpLookup, illegal], .of_early (by decide) ?_⟩
        exact first (illegal.imp_right fun slash => ⟨rfl, slash⟩)
      · exact ⟨status, by simp [fsLookup, extOpLookup, illegal, invalid], rejects⟩

theorem fsReadlink_dead : ∃ status, (fsReadlink server calls volume ino).1 = .error status ∧
    Rejects early calls volume ino status volume := by
  cases volume with
  | ntfs mount =>
      obtain ⟨code, closed, -⟩ := ntfsInodeOpen_dead dead (calls.ntfs.fault (.openInode .child))
      exact ⟨.stale, by simp only [fsReadlink, ntfsOpReadlink, closed], .of_stale⟩
  | ext volume =>
      obtain ⟨status, invalid, -, rejects⟩ :=
        extOpGetattr_dead server.config calls dead early .child
      exact ⟨status, by simp only [fsReadlink, extOpReadlink, invalid], rejects⟩

theorem fsRead_dead (offset count : Nat) :
    Rejects early calls volume ino (fsRead server calls volume ino offset count).status volume := by
  cases volume with
  | ntfs mount =>
      obtain ⟨code, closed, -⟩ := ntfsInodeOpen_dead dead (calls.ntfs.fault (.openInode .child))
      simp only [fsRead, ntfsOpRead, closed]
      exact .of_stale
  | ext volume =>
      obtain ⟨status, invalid, -, rejects⟩ :=
        extOpGetattr_dead server.config calls dead early .child
      simp only [fsRead, extOpRead, invalid]
      exact rejects

theorem fsWrite_dead (offset : Nat) (data : List UInt8) (stable : StableHow) :
    Rejects early calls volume ino (fsWrite server calls volume ino offset data stable).1.status
      (fsWrite server calls volume ino offset data stable).2 := by
  cases volume with
  | ntfs mount =>
      obtain ⟨code, closed, -⟩ := ntfsInodeOpen_dead dead (calls.ntfs.fault (.openInode .child))
      have opened : ntfsOpenWithParent calls.ntfs mount ino = (none, mount) := by
        simp only [ntfsOpenWithParent, closed]
      simp only [fsWrite, ntfsOpWrite, opened, Prod.map, id]
      exact .of_stale
  | ext volume =>
      obtain ⟨status, invalid, -, rejects⟩ :=
        extOpGetattr_dead server.config calls dead early .child
      simp only [fsWrite, extOpWrite, invalid, Prod.map, id]
      exact rejects

theorem fsCreate_dead (name : Name) (mode : CreateMode) (sattr : Option SAttr3) :
    Rejects early calls volume ino (fsCreate server calls volume ino name mode sattr).1.status
      (fsCreate server calls volume ino name mode sattr).2 := by
  cases volume with
  | ntfs mount =>
      obtain ⟨code, closed, -⟩ := ntfsInodeOpen_dead dead (calls.ntfs.fault (.openInode .dir))
      simp only [fsCreate, ntfsOpCreate, closed, Prod.map, id, ObjResult.early]
      exact .of_stale
  | ext volume =>
      obtain ⟨status, invalid, -, rejects⟩ :=
        extOpGetattr_dead server.config calls dead early .dir
      simp only [fsCreate, extOpCreate, invalid, Prod.map, id, ObjResult.early]
      exact rejects

theorem fsMkdir_dead (name : Name) (sattr : Option SAttr3) :
    Rejects early calls volume ino (fsMkdir server calls volume ino name sattr).1.status
      (fsMkdir server calls volume ino name sattr).2 := by
  cases volume with
  | ntfs mount =>
      obtain ⟨code, closed, -⟩ := ntfsInodeOpen_dead dead (calls.ntfs.fault (.openInode .dir))
      simp only [fsMkdir, ntfsOpMkdir, closed, Prod.map, id, ObjResult.early]
      exact .of_stale
  | ext volume =>
      obtain ⟨status, invalid, -, rejects⟩ :=
        extOpGetattr_dead server.config calls dead early .dir
      simp only [fsMkdir, extOpMkdir, invalid, Prod.map, id, ObjResult.early]
      exact rejects

theorem fsSymlink_dead (name : Name) (sattr : Option SAttr3) (target : Name)
    (first : target = [] → early) :
    Rejects early calls volume ino (fsSymlink server calls volume ino name sattr target).1.status
      (fsSymlink server calls volume ino name sattr target).2 := by
  by_cases empty : target = []
  · cases volume <;> simp only [fsSymlink, ntfsOpSymlink, extOpSymlink, if_pos empty, Prod.map, id,
      ObjResult.early] <;> exact .of_early (by decide) (first empty)
  cases volume with
  | ntfs mount =>
      obtain ⟨code, closed, -⟩ := ntfsInodeOpen_dead dead (calls.ntfs.fault (.openInode .dir))
      simp only [fsSymlink, ntfsOpSymlink, if_neg empty, closed, Prod.map, id, ObjResult.early]
      exact .of_stale
  | ext volume =>
      obtain ⟨status, invalid, -, rejects⟩ :=
        extOpGetattr_dead server.config calls dead early .dir
      simp only [fsSymlink, extOpSymlink, if_neg empty, invalid, Prod.map, id, ObjResult.early]
      exact rejects

theorem fsRemove_dead (name : Name) :
    Rejects early calls volume ino (fsRemove server calls volume ino name).1.status
      (fsRemove server calls volume ino name).2 := by
  cases volume with
  | ntfs mount =>
      obtain ⟨code, closed, -⟩ := ntfsInodeOpen_dead dead (calls.ntfs.fault (.openInode .dir))
      simp only [fsRemove, ntfsOpRemove, ntfsOpUnlinkCommon, closed, Prod.map, id, DirResult.early]
      exact .of_stale
  | ext volume =>
      obtain ⟨status, invalid, -, rejects⟩ :=
        extOpGetattr_dead server.config calls dead early .dir
      simp only [fsRemove, extOpRemove, invalid, Prod.map, id, DirResult.early]
      exact rejects

theorem fsRmdir_dead (name : Name) :
    Rejects early calls volume ino (fsRmdir server calls volume ino name).1.status
      (fsRmdir server calls volume ino name).2 := by
  cases volume with
  | ntfs mount =>
      obtain ⟨code, closed, -⟩ := ntfsInodeOpen_dead dead (calls.ntfs.fault (.openInode .dir))
      simp only [fsRmdir, ntfsOpRmdir, ntfsOpUnlinkCommon, closed, Prod.map, id, DirResult.early]
      exact .of_stale
  | ext volume =>
      obtain ⟨status, invalid, -, rejects⟩ :=
        extOpGetattr_dead server.config calls dead early .dir
      simp only [fsRmdir, extOpRmdir, invalid, Prod.map, id, DirResult.early]
      exact rejects

/-- Either directory of a RENAME may be the one that is gone. -/
theorem fsRename_dead (fromDir toDir : Nat) (fromName toName : Name)
    (one : ino = fromDir ∨ ino = toDir) :
    Rejects early calls volume ino
      (fsRename server calls volume fromDir fromName toDir toName).1.status
      (fsRename server calls volume fromDir fromName toDir toName).2 := by
  have given : (fsRename server calls volume fromDir fromName toDir toName).1.status = .stale ∧
      (fsRename server calls volume fromDir fromName toDir toName).2 = volume := by
    cases volume with
    | ntfs mount =>
        simp only [fsRename, ntfsOpRename, Prod.map, id]
        rcases one with rfl | rfl
        · obtain ⟨status, closed, -⟩ := ntfsOpGetattr_dead server.config calls dead early .fromDir
          simp only [closed, and_self]
        · obtain ⟨status, closed, -⟩ := ntfsOpGetattr_dead server.config calls dead early .toDir
          simp only [closed]
          cases ntfsOpGetattr server.config calls.ntfs .fromDir mount.volume fromDir <;>
            exact ⟨rfl, rfl⟩
    | ext volume =>
        simp only [fsRename, extOpRename, Prod.map, id]
        rcases one with rfl | rfl
        · obtain ⟨status, -, closed, -⟩ := extOpGetattr_dead server.config calls dead early .fromDir
          simp only [closed, and_self]
        · obtain ⟨status, -, closed, -⟩ := extOpGetattr_dead server.config calls dead early .toDir
          simp only [closed]
          cases extOpGetattr server.config (calls.ext.fault (.readValid .fromDir)) volume fromDir <;>
            exact ⟨rfl, rfl⟩
  rw [given.1, given.2]
  exact .of_stale

theorem fsLink_dead_dir (file : Nat) (name : Name) :
    Rejects early calls volume ino (fsLink server calls volume file ino name).1.status
      (fsLink server calls volume file ino name).2 := by
  cases volume with
  | ntfs mount =>
      obtain ⟨status, closed, -⟩ := ntfsOpGetattr_dead server.config calls dead early .dir
      simp only [fsLink, ntfsOpLink, closed, Prod.map, id]
      exact .of_stale
  | ext volume =>
      obtain ⟨status, invalid, -, rejects⟩ :=
        extOpGetattr_dead server.config calls dead early .dir
      simp only [fsLink, extOpLink, invalid, Prod.map, id]
      exact rejects

/-- A LINK of a file that is gone: on NTFS the directory and the name come first. -/
theorem fsLink_dead_file (dirIno : Nat) (name : Name)
    (first : volume.isNtfs = true ∧ (volume.isDirectory (volume.number dirIno) = false ∨
      ∃ status, ntfsUtf8ToUcs server.lib name = .error status) → early) :
    Rejects early calls volume ino (fsLink server calls volume ino dirIno name).1.status
      (fsLink server calls volume ino dirIno name).2 := by
  cases volume with
  | ntfs mount =>
      simp only [fsLink, ntfsOpLink, Prod.map, id]
      split
      · exact .of_stale
      rename_i dpre got
      obtain ⟨record, opened, rfl⟩ := ntfsOpGetattr_ok got
      obtain ⟨-, present, -⟩ := ntfsInodeOpen_ok opened
      split
      · rename_i notDir
        refine .of_early (fun bad => nomatch bad) (first ⟨rfl, .inl ?_⟩)
        have plain : ¬ record.isDir = true := fun isDir => notDir ((ntfsFillAttr_type _ _ _ _).mpr isDir)
        simpa [Volume.isDirectory, Volume.number, present] using plain
      split
      · rename_i status illegal
        exact .of_early (ntfsUtf8ToUcs_error_ne_ok illegal) (first ⟨rfl, .inr ⟨status, illegal⟩⟩)
      obtain ⟨code, closed, -⟩ := ntfsInodeOpen_dead dead (calls.ntfs.fault (.openInode .child))
      rw [closed]
      split
      · rename_i bad
        cases bad
      · exact .of_stale
  | ext volume =>
      simp only [fsLink, extOpLink, Prod.map, id]
      obtain ⟨status, invalid, -, rejects⟩ :=
        extOpGetattr_dead server.config calls dead early .child
      split
      · rename_i status bad
        refine ⟨extReadValidInode_error_ne_ok bad, rfl, ?_⟩
        intro _ quiet _
        have silent : calls.ext.fault (.readValid .dir) = none := quiet.2 _
        rw [silent] at bad
        exact extReadValidInode_none_error bad
      · rw [invalid]
        exact rejects

theorem fsReaddir_dead : ∃ status attr,
    fsReaddir server calls volume ino = (.error status, attr, volume) ∧
      Rejects early calls volume ino status volume := by
  cases volume with
  | ntfs mount =>
      obtain ⟨code, closed, -⟩ := ntfsInodeOpen_dead dead (calls.ntfs.fault (.openInode .dir))
      exact ⟨.stale, none, by simp only [fsReaddir, ntfsOpReaddir, closed], .of_stale⟩
  | ext volume =>
      obtain ⟨status, invalid, -, rejects⟩ :=
        extOpGetattr_dead server.config calls dead early .dir
      exact ⟨status, none, by simp only [fsReaddir, extOpReaddir, invalid], rejects⟩

theorem fsFsstat_dead : (fsFsstat server calls volume ino).1 = .error .stale := by
  cases volume with
  | ntfs mount =>
      obtain ⟨status, closed, -⟩ := ntfsOpGetattr_dead server.config calls dead True .child
      simp only [fsFsstat, ntfsOpFsstat, closed]
  | ext volume =>
      obtain ⟨status, -, closed, -⟩ := extOpGetattr_dead server.config calls dead True .child
      simp only [fsFsstat, extOpFsstat, closed]

theorem fsCommit_dead : (fsCommit server calls volume ino).1.status = .stale ∧
    (fsCommit server calls volume ino).2 = volume := by
  cases volume with
  | ntfs mount =>
      obtain ⟨status, closed, -⟩ := ntfsOpGetattr_dead server.config calls dead True .child
      simp only [fsCommit, ntfsOpCommit, closed, Prod.map, id, DirResult.early, and_self]
  | ext volume =>
      obtain ⟨status, -, closed, -⟩ := extOpGetattr_dead server.config calls dead True .child
      simp only [fsCommit, extOpCommit, closed, Prod.map, id, DirResult.early, and_self]

end Dispatch

/-- Whatever request carries a handle that opens nothing is refused, and changes nothing. -/
theorem handleProc_dead (server : Server) (calls : Calls) {volume : Volume} {handle : Handle}
    {ino : Nat} (request : Request) (carried : handle ∈ request.handles)
    (decoded : xdrGetFh handle = some ino) (dead : volume.resolves ino = false) :
    Rejects (CheckedFirst server volume request) calls volume ino
      (handleProc server calls volume request).1.status
      (handleProc server calls volume request).2 := by
  generalize isEarly : CheckedFirst server volume request = early
  cases request with
  | null => cases carried
  | mnt path => cases carried
  | umnt path => cases carried
  | umntall => cases carried
  | getattr fh =>
      obtain rfl := List.mem_singleton.mp carried
      obtain ⟨status, closed, rejects⟩ := fsGetattr_dead server calls dead early
      simp only [handleProc, decoded, Reply.status, closed, statusOf]
      exact rejects
  | setattr fh sattr guard =>
      obtain rfl := List.mem_singleton.mp carried
      obtain ⟨status, closed, -⟩ := fsGetattr_dead server (calls.turn 0) dead early
      simp only [handleProc, decoded, handleSetattr, closed, Reply.status]
      exact .of_stale
  | lookup dir name =>
      obtain rfl := List.mem_singleton.mp carried
      obtain ⟨status, closed, rejects⟩ := fsLookup_dead server calls dead early name
        (fun first => isEarly ▸ first)
      simp only [handleProc, decoded, handleLookup, closed, Reply.status, statusOf]
      exact rejects
  | access fh wanted =>
      obtain rfl := List.mem_singleton.mp carried
      obtain ⟨status, closed, rejects⟩ := fsGetattr_dead server calls dead early
      simp only [handleProc, decoded, handleAccess, closed, Reply.status]
      exact rejects
  | readlink fh =>
      obtain rfl := List.mem_singleton.mp carried
      obtain ⟨status, closed, rejects⟩ := fsReadlink_dead server calls dead early
      simp only [handleProc, decoded, closed, Reply.status, statusOf]
      exact rejects
  | read fh offset count =>
      obtain rfl := List.mem_singleton.mp carried
      simp only [handleProc, decoded, handleRead, Reply.status]
      exact fsRead_dead server calls dead early offset _
  | write fh offset count stable data =>
      obtain rfl := List.mem_singleton.mp carried
      simp only [handleProc, decoded, handleWrite, Reply.status]
      exact fsWrite_dead server calls dead early offset _ stable
  | create dir name how =>
      obtain rfl := List.mem_singleton.mp carried
      simp only [handleProc, decoded, createdReply, Reply.status]
      exact fsCreate_dead server calls dead early name _ _
  | mkdir dir name sattr =>
      obtain rfl := List.mem_singleton.mp carried
      simp only [handleProc, decoded, createdReply, Reply.status]
      exact fsMkdir_dead server calls dead early name _
  | symlink dir name sattr target =>
      obtain rfl := List.mem_singleton.mp carried
      simp only [handleProc, decoded, createdReply, Reply.status]
      exact fsSymlink_dead server calls dead early name _ target (fun first => isEarly ▸ first)
  | mknod dir name =>
      obtain rfl := List.mem_singleton.mp carried
      simp only [handleProc, decoded, handleMknod, Reply.status]
      exact .of_early (by decide) (isEarly ▸ trivial)
  | remove dir name =>
      obtain rfl := List.mem_singleton.mp carried
      simp only [handleProc, decoded, Reply.status]
      exact fsRemove_dead server calls dead early name
  | rmdir dir name =>
      obtain rfl := List.mem_singleton.mp carried
      simp only [handleProc, decoded, Reply.status]
      exact fsRmdir_dead server calls dead early name
  | rename fromDir fromName toDir toName =>
      have one := carried
      simp only [Request.handles, List.mem_cons, List.not_mem_nil, or_false] at one
      cases fromDecoded : xdrGetFh fromDir with
      | none =>
          simp only [handleProc, fromDecoded, Reply.status]
          exact .of_early (by decide) (isEarly ▸ .inl fromDecoded)
      | some fromIno =>
          cases toDecoded : xdrGetFh toDir with
          | none =>
              simp only [handleProc, fromDecoded, toDecoded, Reply.status]
              exact .of_early (by decide) (isEarly ▸ .inr toDecoded)
          | some toIno =>
              simp only [handleProc, fromDecoded, toDecoded, Reply.status]
              refine fsRename_dead server calls dead early fromIno toIno fromName toName ?_
              rcases one with rfl | rfl
              · rw [decoded] at fromDecoded
                exact .inl (Option.some.inj fromDecoded)
              · rw [decoded] at toDecoded
                exact .inr (Option.some.inj toDecoded)
  | link fh dir name =>
      have one := carried
      simp only [Request.handles, List.mem_cons, List.not_mem_nil, or_false] at one
      cases fileDecoded : xdrGetFh fh with
      | none =>
          simp only [handleProc, fileDecoded, Reply.status]
          exact .of_early (by decide) (isEarly ▸ .inl fileDecoded)
      | some fileIno =>
          cases dirDecoded : xdrGetFh dir with
          | none =>
              simp only [handleProc, fileDecoded, dirDecoded, Reply.status]
              exact .of_early (by decide) (isEarly ▸ .inr (.inl dirDecoded))
          | some dirIno =>
              simp only [handleProc, fileDecoded, dirDecoded, Reply.status]
              rcases one with rfl | rfl
              · rw [decoded] at fileDecoded
                cases fileDecoded
                refine fsLink_dead_file server calls dead early dirIno name ?_
                rintro ⟨backend, notDir | illegal⟩
                · exact isEarly ▸ .inr (.inr ⟨backend, .inl ⟨dirIno, dirDecoded, notDir⟩⟩)
                · exact isEarly ▸ .inr (.inr ⟨backend, .inr illegal⟩)
              · rw [decoded] at dirDecoded
                cases dirDecoded
                exact fsLink_dead_dir server calls dead early fileIno name
  | readdir dir cookie cverf count =>
      obtain rfl := List.mem_singleton.mp carried
      obtain ⟨status, attr, closed, rejects⟩ := fsReaddir_dead server calls dead early
      simp only [handleProc, decoded, handleReaddir, closed, Reply.status]
      exact rejects
  | readdirplus dir cookie cverf dircount maxcount =>
      obtain rfl := List.mem_singleton.mp carried
      obtain ⟨status, attr, closed, rejects⟩ := fsReaddir_dead server calls dead early
      simp only [handleProc, decoded, handleReaddirplus, closed, Reply.status]
      exact rejects
  | fsstat fh =>
      obtain rfl := List.mem_singleton.mp carried
      have closed := fsFsstat_dead server calls dead
      simp only [handleProc, decoded, handleFsstat, closed, Reply.status, statusOf]
      exact .of_stale
  | fsinfo fh =>
      obtain rfl := List.mem_singleton.mp carried
      obtain ⟨status, closed, rejects⟩ := fsGetattr_dead server calls dead early
      simp only [handleProc, decoded, handleInfo, closed, Reply.status]
      exact rejects
  | pathconf fh =>
      obtain rfl := List.mem_singleton.mp carried
      obtain ⟨status, closed, rejects⟩ := fsGetattr_dead server calls dead early
      simp only [handleProc, decoded, handleInfo, closed, Reply.status]
      exact rejects
  | commit fh offset count =>
      obtain rfl := List.mem_singleton.mp carried
      obtain ⟨status, unchanged⟩ := fsCommit_dead server calls dead
      simp only [handleProc, decoded, status, unchanged, Reply.status]
      exact .of_stale

end Rufux.Mountd
