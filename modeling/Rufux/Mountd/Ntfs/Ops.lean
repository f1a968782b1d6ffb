import Rufux.Mountd.Ntfs.Volume
import Rufux.Mountd.ParentCache

/-!
The `ntfs_op_*` functions of `mountd_nfs.c` over a volume and the parent cache.
-/

namespace Rufux.Mountd

open Rufux.Library

structure NtfsMount where
  volume : NtfsVolume
  cache : ParentCache

def NtfsMount.setParent (mount : NtfsMount) (child parent : Nat) : NtfsMount :=
  { mount with cache := cacheSetParent mount.cache child parent }

def NtfsMount.setVolume (mount : NtfsMount) (volume : NtfsVolume) : NtfsMount :=
  { mount with volume := volume }

def ntfsUtf8ToUcs (lib : NtfsLib) (name : Name) : Except Nfsstat UcsName :=
  if ¬ validLeafName name then .error .inval
  else match lib.mbstoucs name with
    | none => .error .inval
    | some ucs =>
        if ucs = [] then .error .inval
        else if 255 < ucs.length then .error .nametoolong
        else .ok ucs

/-- `PATH_MAX` bounds what `ntfs_read_symlink_str` stores. -/
def ntfsPathMax : Nat := 1024

def ntfsReadSymlinkStr (fault : Option Errno) (record : NtfsRecord) : Except Nfsstat Name :=
  match record.symlink with
  | none => .error .inval
  | some target =>
      match fault with
      | some code => .error (errnoToNfs3 code)
      | none => if ntfsPathMax ≤ target.length then .error .nametoolong else .ok target

/-- `ntfs_dir_parent_inode`: the parent that the first FILE_NAME attribute gives. -/
def ntfsDirParentInode (fault : Option Errno) (volume : NtfsVolume) (ino : Nat)
    (record : NtfsRecord) : Option Nat :=
  if mref ino = fileRoot then none
  else match record.fileNames with
    | [] => none
    | (parent, _) :: _ =>
        match ntfsInodeOpen fault volume (mref parent) with
        | .error _ => none
        | .ok _ => some (mref parent)

def ntfsResolveParentIno (calls : NtfsCalls) (mount : NtfsMount) (ino : Nat)
    (record : NtfsRecord) : Nat × NtfsMount :=
  if ino = fileRoot then (fileRoot, mount)
  else match cacheGetParent mount.cache ino with
    | some (parent + 1) => (parent + 1, mount)
    | _ =>
        match ntfsDirParentInode (calls.fault (.parentInode .dir)) mount.volume ino record with
        | some (parent + 1) => (parent + 1, mount.setParent ino (parent + 1))
        | _ => (0, mount)

def attrSec (time : Timestamp) : Nat := time.sec.toNat % 2 ^ 32

def attrNsec (time : Timestamp) : Nat := if time.sec < 0 then 0 else time.nsec

def NtfsRecord.dataSize (record : NtfsRecord) : Nat := (record.data.getD []).length

def ntfsFillAttr (config : Config) (fault : Option Errno) (ino : Nat) (record : NtfsRecord) :
    NfsAttr where
  type := if record.isDir then .dir else if record.symlink.isSome then .lnk else .reg
  mode := if record.isDir then 0o777 else if record.symlink.isSome then 0o777 else 0o666
  nlink := if record.fileNames.length = 0 then 1 else record.fileNames.length
  uid := config.uid
  gid := config.gid
  size :=
    if record.isDir then 4096
    else match ntfsReadSymlinkStr fault record with
      | .ok target => target.length
      | .error _ => record.dataSize
  used := if record.isDir then 4096 else record.allocated
  fsid := config.fsid
  fileid := ino
  atimeSec := attrSec record.atime
  atimeNsec := attrNsec record.atime
  mtimeSec := attrSec record.mtime
  mtimeNsec := attrNsec record.mtime
  ctimeSec := attrSec record.ctime
  ctimeNsec := attrNsec record.ctime

def ntfsOpGetattr (config : Config) (calls : NtfsCalls) (role : NtfsRole) (volume : NtfsVolume)
    (ino : Nat) : Except Nfsstat NfsAttr :=
  match ntfsInodeOpen (calls.fault (.openInode role)) volume ino with
  | .error code => .error (if code = .enoent ∨ code = .eio then .stale else errnoToNfs3 code)
  | .ok record => .ok (ntfsFillAttr config (calls.fault (.fillAttr role)) ino record)

/-- The `post_ok` blocks that a second GETATTR fills. -/
def ntfsPostAttr (config : Config) (calls : NtfsCalls) (role : NtfsRole) (volume : NtfsVolume)
    (ino : Nat) : Option NfsAttr :=
  (ntfsOpGetattr config calls role volume ino).toOption

/-- The record that `ntfs_open_with_parent` opens, and whether it opened a parent too. -/
def ntfsOpenWithParent (calls : NtfsCalls) (mount : NtfsMount) (ino : Nat) :
    Option (NtfsRecord × Bool) × NtfsMount :=
  let opens (role : NtfsRole) (parent : Nat) : Bool :=
    parent ≠ 0 ∧ parent ≠ ino ∧
      (ntfsInodeOpen (calls.fault (.parentInode role)) mount.volume parent).isOk
  let cached := ino ≠ fileRoot ∧ ((cacheGetParent mount.cache ino).any (opens .parent))
  match ntfsInodeOpen (calls.fault (.openInode .child)) mount.volume ino with
  | .error _ => (none, mount)
  | .ok record =>
      if cached ∨ ino = fileRoot then (some (record, cached), mount)
      else
        let resolved := ntfsResolveParentIno calls mount ino record
        (some (record, opens .child resolved.1), resolved.2)

def ntfsCloseWithParent (calls : NtfsCalls) (hasParent : Bool) : Bool :=
  (calls.fault .closeInDir).isNone && (!hasParent || (calls.fault .closeDir).isNone)

def ntfsApplyTime (now old : Timestamp) : TimeHow → Timestamp
  | .dontChange => old
  | .serverTime => now
  | .clientTime sec nsec => timespec2ntfs sec nsec

def ntfsApplySattrTimes (now : Timestamp) (record : NtfsRecord) (sattr : SAttr3) : NtfsRecord :=
  { record with
    atime := ntfsApplyTime now record.atime sattr.atime
    mtime := ntfsApplyTime now record.mtime sattr.mtime
    ctime := if sattr.atime ≠ .dontChange ∨ sattr.mtime ≠ .dontChange then now else record.ctime }

/-- `ntfs_attr_open` of the unnamed $DATA. -/
def ntfsAttrOpen (fault : Option Errno) (record : NtfsRecord) : Except Errno (List UInt8) :=
  match fault with
  | some code => .error code
  | none =>
      match record.data with
      | none => .error .enoent
      | some bytes => .ok bytes

/-- The end of `ntfs_op_setattr`, where the new times are applied and the record closed. -/
def ntfsFinishSetattr (config : Config) (calls : NtfsCalls) (mount : NtfsMount) (ino : Nat)
    (record : NtfsRecord) (hasParent : Bool) (sattr : SAttr3) :
    Except Nfsstat NfsAttr × NtfsMount :=
  let timed := ntfsApplySattrTimes calls.now record sattr
  let stored := mount.setVolume (mount.volume.setRecord (mref ino) (some timed))
  if ntfsCloseWithParent calls hasParent then
    (.ok (ntfsFillAttr config (calls.fault (.fillAttr .child)) ino timed), stored)
  else (.error .io, stored)

def ntfsOpSetattr (config : Config) (calls : NtfsCalls) (mount : NtfsMount) (ino : Nat)
    (sattr : SAttr3) : Except Nfsstat NfsAttr × NtfsMount :=
  match ntfsOpenWithParent calls mount ino with
  | (none, opened) => (.error .stale, opened)
  | (some (record, hasParent), opened) =>
      match sattr.size with
      | none => ntfsFinishSetattr config calls opened ino record hasParent sattr
      | some size =>
          if record.isDir then (.error .isdir, opened)
          else match ntfsAttrOpen (calls.fault .openAttr) record with
            | .error code => (.error (errnoToNfs3 code), opened)
            | .ok bytes =>
                match ntfsAttrTruncate (calls.fault .truncate) calls bytes record (toS64 size) with
                | .error code => (.error (errnoToNfs3 code), opened)
                | .ok sized =>
                    ntfsFinishSetattr config calls opened ino
                      { sized with mtime := calls.now, ctime := calls.now } hasParent sattr

def ntfsOpLookup (config : Config) (lib : NtfsLib) (calls : NtfsCalls) (mount : NtfsMount)
    (dirIno : Nat) (name : Name) : Except Nfsstat (Nat × NfsAttr) × NtfsMount :=
  if name = [] then (.error .acces, mount)
  else match ntfsInodeOpen (calls.fault (.openInode .dir)) mount.volume dirIno with
  | .error _ => (.error .stale, mount)
  | .ok dirNi =>
      if ¬ dirNi.isDir then (.error .notdir, mount)
      else if name = dotName then
        (.ok (dirIno, ntfsFillAttr config (calls.fault (.fillAttr .dir)) dirIno dirNi), mount)
      else if name = dotdotName then
        let resolved := ntfsResolveParentIno calls mount dirIno dirNi
        let pino := if resolved.1 = 0 then fileRoot else resolved.1
        ((ntfsOpGetattr config calls .parent mount.volume pino).map fun attr => (pino, attr),
          resolved.2)
      else match ntfsUtf8ToUcs lib name with
      | .error status => (.error status, mount)
      | .ok ucs =>
          match ntfsLookupByName (calls.fault (.lookup .dir)) mount.volume (mref dirIno) ucs with
          | .error code => (.error (errnoToNfs3 code), mount)
          | .ok cino =>
              if cino < fileFirstUser ∧ cino ≠ fileRoot then (.error .noent, mount)
              else match ntfsInodeOpen (calls.fault (.openInode .child)) mount.volume cino with
                | .error code => (.error (errnoToNfs3 code), mount)
                | .ok record =>
                    (.ok (cino, ntfsFillAttr config (calls.fault (.fillAttr .child)) cino record),
                      mount.setParent cino dirIno)

def ntfsOpReadlink (config : Config) (calls : NtfsCalls) (volume : NtfsVolume) (ino : Nat) :
    Except Nfsstat Name × Option NfsAttr :=
  match ntfsInodeOpen (calls.fault (.openInode .child)) volume ino with
  | .error _ => (.error .stale, none)
  | .ok record =>
      (if record.isDir then .error .inval else ntfsReadSymlinkStr (calls.fault .readSymlink) record,
        some (ntfsFillAttr config (calls.fault (.fillAttr .child)) ino record))

/-- The loop of `ntfs_op_read`: `fuel` bounds the turns, each of which moves at least a byte. -/
def ntfsReadLoop (calls : NtfsCalls) (bytes : List UInt8) :
    Nat → Nat → Nat → Nat → Except Nfsstat (List UInt8)
  | 0, _, _, _ => .ok []
  | fuel + 1, turn, pos, left =>
      if left = 0 then .ok []
      else match calls.fault (.pread turn) with
        | some code => .error (errnoToNfs3 code)
        | none =>
            let got := (bytes.drop pos).take (min (calls.chunk turn) left)
            if got = [] then .ok []
            else
              (ntfsReadLoop calls bytes fuel (turn + 1) (pos + got.length)
                (left - got.length)).map (got ++ ·)

def ntfsOpRead (config : Config) (calls : NtfsCalls) (volume : NtfsVolume)
    (ino offset count : Nat) : ReadResult :=
  match ntfsInodeOpen (calls.fault (.openInode .child)) volume ino with
  | .error _ => { status := .stale, data := [], eof := false, attr := none }
  | .ok record =>
      let refuse (status : Nfsstat) : ReadResult :=
        { status := status, data := [], eof := false
          attr := some (ntfsFillAttr config (calls.fault (.fillAttr .child)) ino record) }
      if record.isDir then refuse .isdir
      else if record.symlink.isSome then refuse .inval
      else match ntfsAttrOpen (calls.fault .openAttr) record with
        | .error code => refuse (errnoToNfs3 code)
        | .ok bytes =>
            if bytes.length ≤ offset ∨ count = 0 then
              { refuse .ok with eof := decide (bytes.length ≤ offset) }
            else
              let wanted := min (bytes.length - offset) count
              match ntfsReadLoop calls bytes wanted 0 offset wanted with
              | .error status => refuse status
              | .ok data =>
                  { refuse .ok with
                    data := data
                    eof := decide (bytes.length ≤ offset + data.length) }

/-- The loop of `ntfs_op_write`: `some status` is the early return. -/
def ntfsWriteLoop (calls : NtfsCalls) :
    Nat → Nat → Nat → List UInt8 → NtfsRecord → Option Nfsstat × NtfsRecord
  | 0, _, _, _, record => (none, record)
  | fuel + 1, turn, pos, data, record =>
      if data = [] then (none, record)
      else
        let moved := data.take (calls.chunk turn)
        match ntfsAttrPwrite (calls.fault (.pwrite turn)) calls (record.data.getD []) record
            (toS64 (pos % 2 ^ 64)) moved with
        | .error code => (some (errnoToNfs3 code), record)
        | .ok written =>
            if moved = [] then (some .nospc, written)
            else
              ntfsWriteLoop calls fuel (turn + 1) (pos + moved.length) (data.drop moved.length)
                written

/-- `ntfs_op_write` up to the loop: a write that starts past the end first grows the file
to its offset. -/
def ntfsGrowToOffset (calls : NtfsCalls) (bytes : List UInt8) (record : NtfsRecord)
    (offset : Nat) : Except Errno NtfsRecord :=
  if (bytes.length : Int) < toS64 offset then
    ntfsAttrTruncate (calls.fault .truncate) calls bytes record (toS64 offset)
  else .ok record

/-- The end of `ntfs_op_write`: the closing of the record, which may fail, and the device
sync that a stable write asks for. -/
def ntfsFinishWrite (calls : NtfsCalls) (mount : NtfsMount) (hasParent : Bool)
    (stable : StableHow) : Nfsstat × NtfsMount :=
  if ntfsCloseWithParent calls hasParent then
    (.ok,
      if stable ≠ .unstable ∧ mount.volume.hasSync then
        mount.setVolume (ntfsSync (calls.fault .sync) mount.volume)
      else mount)
  else (.io, mount)

def ntfsOpWrite (config : Config) (calls : NtfsCalls) (mount : NtfsMount) (ino offset : Nat)
    (data : List UInt8) (stable : StableHow) : WriteResult × NtfsMount :=
  match ntfsOpenWithParent calls mount ino with
  | (none, opened) =>
      ({ status := .stale, written := 0, committed := .fileSync, pre := none, post := none },
        opened)
  | (some (record, hasParent), opened) =>
      let preAttr := ntfsFillAttr config (calls.fault (.fillAttr .child)) ino record
      let refuse (status : Nfsstat) (post : Option NfsAttr) : WriteResult :=
        { status := status, written := 0, committed := .fileSync,
          pre := some (attrToWccPre preAttr), post := post }
      let store (left : NtfsRecord) : NtfsMount :=
        opened.setVolume (opened.volume.setRecord (mref ino) (some left))
      let post (left : NtfsRecord) : Option NfsAttr :=
        some (ntfsFillAttr config (calls.fault (.fillAttr .post)) ino left)
      if record.isDir then (refuse .isdir (some preAttr), opened)
      else if record.symlink.isSome then (refuse .inval (some preAttr), opened)
      else match ntfsAttrOpen (calls.fault .openAttr) record with
        | .error code => (refuse (errnoToNfs3 code) (some preAttr), opened)
        | .ok bytes =>
            match ntfsGrowToOffset calls bytes record offset with
            | .error code => (refuse (errnoToNfs3 code) none, opened)
            | .ok grown =>
                match ntfsWriteLoop calls data.length 0 offset data grown with
                | (some status, left) => (refuse status (post left), store left)
                | (none, left) =>
                    let stamped := { left with mtime := calls.now, ctime := calls.now }
                    let finished := ntfsFinishWrite calls (store stamped) hasParent stable
                    ({ refuse finished.1 (post stamped) with
                       written := if finished.1 = .ok then data.length else 0 }, finished.2)

/-- What CREATE, MKDIR and SYMLINK do after the record was made: `finish` is the record
as they leave it. -/
def ntfsFinishCreate (config : Config) (calls : NtfsCalls) (mount : NtfsMount) (dirIno : Nat)
    (dirNi : NtfsRecord) (pre : WccPre) (made : Nat × NtfsVolume)
    (finish : NtfsRecord → NtfsRecord) : ObjResult × NtfsMount :=
  let fresh := (made.2.record made.1).map finish
  let left := (mount.setVolume (made.2.setRecord made.1 fresh)).setParent made.1 dirIno
  let attr := fresh.map (ntfsFillAttr config (calls.fault (.fillAttr .child)) made.1)
  let dirPost := some (ntfsFillAttr config (calls.fault (.fillAttr .post)) dirIno dirNi)
  if (calls.fault .closeInDir).isSome then
    ({ status := .io, ino := 0, attr := attr, pre := some pre, post := none }, left)
  else if (calls.fault .closeDir).isSome then
    ({ status := .io, ino := 0, attr := attr, pre := some pre, post := dirPost }, left)
  else ({ status := .ok, ino := made.1, attr := attr, pre := some pre, post := dirPost }, left)

/-- The record of a new file once the requested size and times are set. A truncation that
fails is passed over. -/
def ntfsDressFile (calls : NtfsCalls) (sattr : Option SAttr3) (record : NtfsRecord) : NtfsRecord :=
  match sattr with
  | none => record
  | some settings =>
      let sized :=
        match settings.size with
        | some (size + 1) =>
            match ntfsAttrOpen (calls.fault .openAttr) record with
            | .error _ => record
            | .ok bytes =>
                (ntfsAttrTruncate (calls.fault .truncate) calls bytes record
                  (toS64 (size + 1))).toOption.getD record
        | _ => record
      ntfsApplySattrTimes calls.now sized settings

def ntfsDressTimes (calls : NtfsCalls) (sattr : Option SAttr3) (record : NtfsRecord) :
    NtfsRecord :=
  match sattr with
  | none => record
  | some settings => ntfsApplySattrTimes calls.now record settings

def ntfsCreateExisting (config : Config) (calls : NtfsCalls) (mount : NtfsMount)
    (dirIno existing : Nat) (pre : WccPre) (sattr : Option SAttr3) : ObjResult × NtfsMount :=
  let cached := mount.setParent existing dirIno
  let applied : Except Nfsstat NfsAttr × NtfsMount :=
    match sattr with
    | some settings => ntfsOpSetattr config (calls.within .child) cached existing settings
    | none => (ntfsOpGetattr config calls .child cached.volume existing, cached)
  let status := match applied.1 with
    | .error status => status
    | .ok _ => .ok
  ({ status := status, ino := existing, attr := applied.1.toOption, pre := some pre,
     post := ntfsPostAttr config calls .post applied.2.volume dirIno }, applied.2)

def ntfsOpCreate (config : Config) (lib : NtfsLib) (calls : NtfsCalls) (mount : NtfsMount)
    (dirIno : Nat) (name : Name) (mode : CreateMode) (sattr : Option SAttr3) :
    ObjResult × NtfsMount :=
  match ntfsInodeOpen (calls.fault (.openInode .dir)) mount.volume dirIno with
  | .error _ => (ObjResult.early .stale, mount)
  | .ok dirNi =>
      let dpre := ntfsFillAttr config (calls.fault (.fillAttr .dir)) dirIno dirNi
      if ¬ dirNi.isDir then (ObjResult.refuse .notdir dpre, mount)
      else match ntfsUtf8ToUcs lib name with
      | .error status => (ObjResult.refuse status dpre, mount)
      | .ok ucs =>
          match ntfsLookupByName (calls.fault (.lookup .dir)) mount.volume (mref dirIno) ucs with
          | .ok eino =>
              if mode ≠ .unchecked then (ObjResult.refuse .exist dpre, mount)
              else ntfsCreateExisting config calls mount dirIno eino (attrToWccPre dpre) sattr
          | .error code =>
              if code ≠ .enoent then (ObjResult.refuse (errnoToNfs3 code) dpre, mount)
              else match ntfsCreate calls mount.volume (mref dirIno) ucs .file with
                | .error failed => (ObjResult.refuse (errnoToNfs3 failed) dpre, mount)
                | .ok made =>
                    ntfsFinishCreate config calls mount dirIno dirNi (attrToWccPre dpre) made
                      (ntfsDressFile calls sattr)

def ntfsOpMkdir (config : Config) (lib : NtfsLib) (calls : NtfsCalls) (mount : NtfsMount)
    (dirIno : Nat) (name : Name) (sattr : Option SAttr3) : ObjResult × NtfsMount :=
  match ntfsInodeOpen (calls.fault (.openInode .dir)) mount.volume dirIno with
  | .error _ => (ObjResult.early .stale, mount)
  | .ok dirNi =>
      let dpre := ntfsFillAttr config (calls.fault (.fillAttr .dir)) dirIno dirNi
      if ¬ dirNi.isDir then (ObjResult.refuse .notdir dpre, mount)
      else match ntfsUtf8ToUcs lib name with
      | .error status => (ObjResult.refuse status dpre, mount)
      | .ok ucs =>
          match ntfsLookupByName (calls.fault (.lookup .dir)) mount.volume (mref dirIno) ucs with
          | .ok _ => (ObjResult.refuse .exist dpre, mount)
          -- any look-up error, not only a missing name, leads to `ntfs_create`
          | .error _ =>
              match ntfsCreate calls mount.volume (mref dirIno) ucs .dir with
              | .error failed => (ObjResult.refuse (errnoToNfs3 failed) dpre, mount)
              | .ok made =>
                  ntfsFinishCreate config calls mount dirIno dirNi (attrToWccPre dpre) made
                    (ntfsDressTimes calls sattr)

def ntfsOpSymlink (config : Config) (lib : NtfsLib) (calls : NtfsCalls) (mount : NtfsMount)
    (dirIno : Nat) (name : Name) (sattr : Option SAttr3) (target : Name) : ObjResult × NtfsMount :=
  if target = [] then (ObjResult.early .inval, mount)
  else match ntfsInodeOpen (calls.fault (.openInode .dir)) mount.volume dirIno with
  | .error _ => (ObjResult.early .stale, mount)
  | .ok dirNi =>
      let dpre := ntfsFillAttr config (calls.fault (.fillAttr .dir)) dirIno dirNi
      if ¬ dirNi.isDir then (ObjResult.refuse .notdir dpre, mount)
      else match ntfsUtf8ToUcs lib name with
      | .error status => (ObjResult.refuse status dpre, mount)
      | .ok ucs =>
          match ntfsLookupByName (calls.fault (.lookup .dir)) mount.volume (mref dirIno) ucs with
          | .ok _ => (ObjResult.refuse .exist dpre, mount)
          | .error _ =>
              match lib.mbstoucs target with
              | none => (ObjResult.refuse .inval dpre, mount)
              | some _ =>
                  match ntfsCreate calls mount.volume (mref dirIno) ucs (.symlink target) with
                  | .error failed => (ObjResult.refuse (errnoToNfs3 failed) dpre, mount)
                  | .ok made =>
                      ntfsFinishCreate config calls mount dirIno dirNi (attrToWccPre dpre) made
                        (ntfsDressTimes calls sattr)

def ntfsOpUnlinkCommon (config : Config) (lib : NtfsLib) (calls : NtfsCalls) (mount : NtfsMount)
    (dirIno : Nat) (name : Name) (expectDir : Bool) : DirResult × NtfsMount :=
  match ntfsInodeOpen (calls.fault (.openInode .dir)) mount.volume dirIno with
  | .error _ => (DirResult.early .stale, mount)
  | .ok dirNi =>
      let dpre := ntfsFillAttr config (calls.fault (.fillAttr .dir)) dirIno dirNi
      if ¬ dirNi.isDir then (DirResult.refuse .notdir dpre, mount)
      else match ntfsUtf8ToUcs lib name with
      | .error status => (DirResult.refuse status dpre, mount)
      | .ok ucs =>
          match ntfsLookupByName (calls.fault (.lookup .dir)) mount.volume (mref dirIno) ucs with
          | .error code => (DirResult.refuse (errnoToNfs3 code) dpre, mount)
          | .ok cino =>
              if cino < fileFirstUser then (DirResult.refuse .acces dpre, mount)
              else match ntfsInodeOpen (calls.fault (.openInode .child)) mount.volume cino with
              | .error code => (DirResult.refuse (errnoToNfs3 code) dpre, mount)
              | .ok cni =>
                  if expectDir ∧ ¬ cni.isDir then (DirResult.refuse .notdir dpre, mount)
                  else if ¬ expectDir ∧ cni.isDir then (DirResult.refuse .isdir dpre, mount)
                  else
                    let answer (status : Nfsstat) (left : NtfsVolume) : DirResult × NtfsMount :=
                      ({ status := status, pre := some (attrToWccPre dpre),
                         post := ntfsPostAttr config calls .post left dirIno },
                        mount.setVolume left)
                    match ntfsDelete (calls.fault .delete) calls mount.volume cino (mref dirIno)
                        ucs with
                    | .error code => answer (errnoToNfs3 code) mount.volume
                    | .ok left => answer .ok left

def ntfsOpRemove (config : Config) (lib : NtfsLib) (calls : NtfsCalls) (mount : NtfsMount)
    (dirIno : Nat) (name : Name) : DirResult × NtfsMount :=
  ntfsOpUnlinkCommon config lib calls mount dirIno name false

def ntfsOpRmdir (config : Config) (lib : NtfsLib) (calls : NtfsCalls) (mount : NtfsMount)
    (dirIno : Nat) (name : Name) : DirResult × NtfsMount :=
  ntfsOpUnlinkCommon config lib calls mount dirIno name true

/-- The two opens that RENAME makes before each of its steps. -/
def ntfsOpenPair (calls : NtfsCalls) (role : NtfsRole) (volume : NtfsVolume)
    (dirIno ino : Nat) : Option Errno :=
  match ntfsInodeOpen (calls.fault (.openInode role)) volume dirIno with
  | .error code => some code
  | .ok _ =>
      match ntfsInodeOpen (calls.fault (.parentInode role)) volume ino with
      | .error code => some code
      | .ok _ => none

/-- The two steps of `ntfs_op_rename`, the target name being free. -/
def ntfsMoveEntry (config : Config) (calls : NtfsCalls) (mount : NtfsMount)
    (fromDirIno toDirIno : Nat) (fu tu : UcsName) (fromIno : Nat) (fromPre toPre : WccPre) :
    RenameResult × NtfsMount :=
  let answer (status : Nfsstat) (left : NtfsMount) : RenameResult × NtfsMount :=
    ({ status := status, fromPre := some fromPre, toPre := some toPre
       fromPost := ntfsPostAttr config calls .fromPost left.volume fromDirIno
       toPost := ntfsPostAttr config calls .toPost left.volume toDirIno }, left)
  match ntfsOpenPair calls .linkDir mount.volume toDirIno fromIno with
  | some code => answer (errnoToNfs3 code) mount
  | none =>
      match ntfsLink (calls.fault .link) calls mount.volume fromIno (mref toDirIno) tu with
      | .error code => answer (errnoToNfs3 code) mount
      | .ok linked =>
          match ntfsOpenPair calls .unlinkDir linked fromDirIno fromIno with
          | some code => answer (errnoToNfs3 code) (mount.setVolume linked)
          | none =>
              match ntfsDelete (calls.fault .delete) calls linked fromIno (mref fromDirIno) fu with
              | .error code =>
                  answer (errnoToNfs3 code) ((mount.setVolume linked).setParent fromIno toDirIno)
              | .ok left => answer .ok ((mount.setVolume left).setParent fromIno toDirIno)

def ntfsOpRename (config : Config) (lib : NtfsLib) (calls : NtfsCalls) (mount : NtfsMount)
    (fromDirIno : Nat) (fromName : Name) (toDirIno : Nat) (toName : Name) :
    RenameResult × NtfsMount :=
  let fromAttr := ntfsOpGetattr config calls .fromDir mount.volume fromDirIno
  let toAttr := ntfsOpGetattr config calls .toDir mount.volume toDirIno
  match fromAttr, toAttr with
  | .ok fpre, .ok tpre =>
      if fpre.type ≠ .dir ∨ tpre.type ≠ .dir then (RenameResult.refuse .notdir fpre tpre, mount)
      else match ntfsUtf8ToUcs lib fromName with
      | .error status => (RenameResult.refuse status fpre tpre, mount)
      | .ok fu =>
      match ntfsUtf8ToUcs lib toName with
      | .error status => (RenameResult.refuse status fpre tpre, mount)
      | .ok tu =>
      match ntfsOpLookup config lib (calls.within .source) mount fromDirIno fromName with
      | (.error status, found) => (RenameResult.refuse status fpre tpre, found)
      | (.ok (fromIno, source), found) =>
          let move (left : NtfsMount) : RenameResult × NtfsMount :=
            ntfsMoveEntry config calls left fromDirIno toDirIno fu tu fromIno
              (attrToWccPre fpre) (attrToWccPre tpre)
          match ntfsOpLookup config lib (calls.within .target) found toDirIno toName with
          | (.error status, looked) =>
              if status ≠ .noent then (RenameResult.refuse status fpre tpre, looked)
              else move looked
          | (.ok (toIno, target), looked) =>
              if toIno = fromIno then (RenameResult.refuse .ok fpre tpre, looked)
              else if source.type = .dir ∧ target.type ≠ .dir then
                (RenameResult.refuse .notdir fpre tpre, looked)
              else if source.type ≠ .dir ∧ target.type = .dir then
                (RenameResult.refuse .isdir fpre tpre, looked)
              else match ntfsOpUnlinkCommon config lib (calls.within .unlinkDir) looked toDirIno
                  toName (decide (target.type = .dir)) with
                | (removed, left) =>
                    if removed.status ≠ .ok then
                      ({ RenameResult.refuse removed.status fpre tpre with
                         fromPost := ntfsPostAttr config calls .fromPost left.volume fromDirIno
                         toPost := ntfsPostAttr config calls .toPost left.volume toDirIno }, left)
                    else move left
  | _, _ =>
      ({ status := .stale, fromPre := fromAttr.toOption.map attrToWccPre, fromPost := none,
         toPre := toAttr.toOption.map attrToWccPre, toPost := none }, mount)

def ntfsOpLink (config : Config) (lib : NtfsLib) (calls : NtfsCalls) (mount : NtfsMount)
    (ino dirIno : Nat) (name : Name) : LinkResult × NtfsMount :=
  match ntfsOpGetattr config calls .dir mount.volume dirIno with
  | .error _ => ({ status := .stale, attr := none, pre := none, post := none }, mount)
  | .ok dpre =>
      let refuse (status : Nfsstat) : LinkResult :=
        { status := status, attr := none, pre := some (attrToWccPre dpre), post := some dpre }
      if dpre.type ≠ .dir then (refuse .notdir, mount)
      else match ntfsUtf8ToUcs lib name with
      | .error status => (refuse status, mount)
      | .ok ucs =>
          match ntfsInodeOpen (calls.fault (.openInode .linkDir)) mount.volume dirIno,
              ntfsInodeOpen (calls.fault (.openInode .child)) mount.volume ino with
          | .ok dirNi, .ok record =>
              let answer (status : Nfsstat) (left : NtfsRecord) : LinkResult :=
                { status := status, pre := some (attrToWccPre dpre)
                  attr := some (ntfsFillAttr config (calls.fault (.fillAttr .child)) ino left)
                  post := some (ntfsFillAttr config (calls.fault (.fillAttr .post)) dirIno dirNi) }
              if record.isDir then (answer .isdir record, mount)
              else match ntfsLink (calls.fault .link) calls mount.volume (mref ino) (mref dirIno)
                  ucs with
                | .error code => (answer (errnoToNfs3 code) record, mount)
                | .ok linked =>
                    (answer .ok ((linked.record (mref ino)).getD record), mount.setVolume linked)
          | _, _ => ({ refuse .stale with post := none }, mount)

/-- The entry that `ntfs_filldir_cb` pushes, if any: reserved records and names that do not
convert are passed over. -/
def ntfsFilldirCb (lib : NtfsLib) (entry : DirEntry UcsName) : Option DirEntryItem :=
  if entry.ino < fileFirstUser then none
  else match lib.ucstombs entry.name with
    | none => none
    | some utf8 =>
        if utf8 = [] ∨ utf8 = dotName ∨ utf8 = dotdotName then none
        else some { fileid := entry.ino, name := utf8 }

def ntfsOpReaddir (config : Config) (lib : NtfsLib) (calls : NtfsCalls) (mount : NtfsMount)
    (dirIno : Nat) : Except Nfsstat (List DirEntryItem) × Option NfsAttr × NtfsMount :=
  match ntfsInodeOpen (calls.fault (.openInode .dir)) mount.volume dirIno with
  | .error _ => (.error .stale, none, mount)
  | .ok dirNi =>
      let attr := some (ntfsFillAttr config (calls.fault (.fillAttr .dir)) dirIno dirNi)
      if ¬ dirNi.isDir then (.error .notdir, attr, mount)
      else
        let resolved := ntfsResolveParentIno calls mount dirIno dirNi
        let pino := if resolved.1 = 0 then fileRoot else resolved.1
        let listed := (mount.volume.entries (mref dirIno)).filterMap (ntfsFilldirCb lib)
        let cached := listed.foldl (fun left item => left.setParent item.fileid dirIno) resolved.2
        match calls.fault .readdir with
        | some code => (.error (errnoToNfs3 code), attr, cached)
        | none => (.ok (⟨dirIno, dotName⟩ :: ⟨pino, dotdotName⟩ :: listed), attr, cached)

def ntfsOpFsstat (config : Config) (calls : NtfsCalls) (volume : NtfsVolume) (ino : Nat) :
    Except Nfsstat FsStatInfo × Option NfsAttr :=
  match ntfsOpGetattr config calls .child volume ino with
  | .error _ => (.error .stale, none)
  | .ok attr =>
      let freeC := min calls.freeClusters volume.nrClusters
      let recorded := if volume.mftRecords = 0 then 4096 else volume.mftRecords
      let freeMft := if calls.freeRecords = 0 then 1024 else calls.freeRecords
      let totalMft := if recorded < freeMft then freeMft + 64 else recorded
      (.ok { tbytes := volume.nrClusters * volume.clusterSize
             fbytes := freeC * volume.clusterSize
             abytes := freeC * volume.clusterSize
             tfiles := totalMft
             ffiles := freeMft
             afiles := freeMft }, some attr)

def ntfsOpCommit (config : Config) (calls : NtfsCalls) (mount : NtfsMount) (ino : Nat) :
    DirResult × NtfsMount :=
  match ntfsOpGetattr config calls .child mount.volume ino with
  | .error _ => (DirResult.early .stale, mount)
  | .ok attr =>
      if mount.volume.hasSync then
        match calls.fault .sync with
        | some _ => (DirResult.refuse .io attr, mount)
        | none => (DirResult.refuse .ok attr, mount.setVolume (ntfsSync none mount.volume))
      else (DirResult.refuse .ok attr, mount)

/-- The NTFS half of `fs_sync_all`. -/
def ntfsSyncAll (calls : NtfsCalls) (mount : NtfsMount) : NtfsMount :=
  if mount.volume.hasSync then mount.setVolume (ntfsSync (calls.fault .sync) mount.volume)
  else mount

end Rufux.Mountd
