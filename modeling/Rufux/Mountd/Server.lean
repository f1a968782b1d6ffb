import Rufux.Library.Paging
import Rufux.Mountd.Ext.Ops
import Rufux.Mountd.Ntfs.Ops

/-!
The dispatch of `mountd_nfs.c`: the `fs_*` functions that choose a backend, and
`handle_nfs_proc` and `handle_mount_proc` on decoded requests.
-/

namespace Rufux.Mountd

open Rufux.Library

/-- What stays fixed while the daemon runs. -/
structure Server where
  config : Config
  lib : NtfsLib

def Server.plain : Server where
  config := { uid := 501, gid := 20, fsid := 1 }
  lib := .ascii

/-- `g_fskind` and the volume behind it. -/
inductive Volume
  | ntfs (mount : NtfsMount)
  | ext (volume : ExtVolume)

def Volume.isNtfs : Volume → Bool
  | .ntfs _ => true
  | .ext _ => false

/-- The choices of the library during one request. -/
structure Calls where
  ntfs : NtfsCalls
  ext : ExtCalls

def Calls.turn (calls : Calls) (index : Nat) : Calls where
  ntfs := calls.ntfs.turn index
  ext := calls.ext.turn index

def Calls.NoFault (calls : Calls) : Prop := calls.ntfs.NoFault ∧ calls.ext.NoFault

def Calls.quiet (number : Nat) : Calls where
  ntfs := .quiet number
  ext := .quiet number

def statusOf {α : Type} : Except Nfsstat α → Nfsstat
  | .error status => status
  | .ok _ => .ok

variable (server : Server) (calls : Calls) (volume : Volume)

def fsRootIno : Nat :=
  match volume with
  | .ntfs _ => fileRoot
  | .ext _ => extRootIno

def fsSyncAll : Volume :=
  match volume with
  | .ntfs mount => .ntfs (ntfsSyncAll calls.ntfs mount)
  | .ext volume => .ext (extSyncAll calls.ext volume)

def fsGetattr (ino : Nat) : Except Nfsstat NfsAttr :=
  match volume with
  | .ntfs mount => ntfsOpGetattr server.config calls.ntfs .child mount.volume ino
  | .ext volume => extOpGetattr server.config (calls.ext.fault (.readValid .child)) volume ino

def fsSetattr (ino : Nat) (sattr : SAttr3) : Except Nfsstat NfsAttr × Volume :=
  match volume with
  | .ntfs mount => (ntfsOpSetattr server.config calls.ntfs mount ino sattr).map id .ntfs
  | .ext volume => (extOpSetattr server.config calls.ext volume ino sattr).map id .ext

def fsLookup (dirIno : Nat) (name : Name) : Except Nfsstat (Nat × NfsAttr) × Volume :=
  match volume with
  | .ntfs mount => (ntfsOpLookup server.config server.lib calls.ntfs mount dirIno name).map id .ntfs
  | .ext volume => (extOpLookup server.config calls.ext volume dirIno name, .ext volume)

def fsReadlink (ino : Nat) : Except Nfsstat Name × Option NfsAttr :=
  match volume with
  | .ntfs mount => ntfsOpReadlink server.config calls.ntfs mount.volume ino
  | .ext volume => extOpReadlink server.config calls.ext volume ino

def fsRead (ino offset count : Nat) : ReadResult :=
  match volume with
  | .ntfs mount => ntfsOpRead server.config calls.ntfs mount.volume ino offset count
  | .ext volume => extOpRead server.config calls.ext volume ino offset count

def fsWrite (ino offset : Nat) (data : List UInt8) (stable : StableHow) : WriteResult × Volume :=
  match volume with
  | .ntfs mount => (ntfsOpWrite server.config calls.ntfs mount ino offset data stable).map id .ntfs
  | .ext volume => (extOpWrite server.config calls.ext volume ino offset data stable).map id .ext

def fsCreate (dirIno : Nat) (name : Name) (mode : CreateMode) (sattr : Option SAttr3) :
    ObjResult × Volume :=
  match volume with
  | .ntfs mount =>
      (ntfsOpCreate server.config server.lib calls.ntfs mount dirIno name mode sattr).map id .ntfs
  | .ext volume => (extOpCreate server.config calls.ext volume dirIno name mode sattr).map id .ext

def fsMkdir (dirIno : Nat) (name : Name) (sattr : Option SAttr3) : ObjResult × Volume :=
  match volume with
  | .ntfs mount =>
      (ntfsOpMkdir server.config server.lib calls.ntfs mount dirIno name sattr).map id .ntfs
  | .ext volume => (extOpMkdir server.config calls.ext volume dirIno name sattr).map id .ext

def fsSymlink (dirIno : Nat) (name : Name) (sattr : Option SAttr3) (target : Name) :
    ObjResult × Volume :=
  match volume with
  | .ntfs mount =>
      (ntfsOpSymlink server.config server.lib calls.ntfs mount dirIno name sattr target).map id .ntfs
  | .ext volume =>
      (extOpSymlink server.config calls.ext volume dirIno name sattr target).map id .ext

def fsRemove (dirIno : Nat) (name : Name) : DirResult × Volume :=
  match volume with
  | .ntfs mount => (ntfsOpRemove server.config server.lib calls.ntfs mount dirIno name).map id .ntfs
  | .ext volume => (extOpRemove server.config calls.ext volume dirIno name).map id .ext

def fsRmdir (dirIno : Nat) (name : Name) : DirResult × Volume :=
  match volume with
  | .ntfs mount => (ntfsOpRmdir server.config server.lib calls.ntfs mount dirIno name).map id .ntfs
  | .ext volume => (extOpRmdir server.config calls.ext volume dirIno name).map id .ext

def fsRename (fromDirIno : Nat) (fromName : Name) (toDirIno : Nat) (toName : Name) :
    RenameResult × Volume :=
  match volume with
  | .ntfs mount =>
      (ntfsOpRename server.config server.lib calls.ntfs mount fromDirIno fromName toDirIno
        toName).map id .ntfs
  | .ext volume =>
      (extOpRename server.config calls.ext volume fromDirIno fromName toDirIno toName).map id .ext

def fsLink (ino dirIno : Nat) (name : Name) : LinkResult × Volume :=
  match volume with
  | .ntfs mount =>
      (ntfsOpLink server.config server.lib calls.ntfs mount ino dirIno name).map id .ntfs
  | .ext volume => (extOpLink server.config calls.ext volume ino dirIno name).map id .ext

def fsReaddir (dirIno : Nat) : Except Nfsstat (List DirEntryItem) × Option NfsAttr × Volume :=
  match volume with
  | .ntfs mount =>
      let listed := ntfsOpReaddir server.config server.lib calls.ntfs mount dirIno
      (listed.1, listed.2.1, .ntfs listed.2.2)
  | .ext volume =>
      let listed := extOpReaddir server.config calls.ext volume dirIno
      (listed.1, listed.2, .ext volume)

def fsFsstat (ino : Nat) : Except Nfsstat FsStatInfo × Option NfsAttr :=
  match volume with
  | .ntfs mount => ntfsOpFsstat server.config calls.ntfs mount.volume ino
  | .ext volume => extOpFsstat server.config calls.ext volume ino

def fsCommit (ino : Nat) : DirResult × Volume :=
  match volume with
  | .ntfs mount => (ntfsOpCommit server.config calls.ntfs mount ino).map id .ntfs
  | .ext volume => (extOpCommit server.config calls.ext volume ino).map id .ext

def handleSetattr (ino : Nat) (sattr : SAttr3) (guard : Option (Nat × Nat)) : Reply × Volume :=
  match fsGetattr server (calls.turn 0) volume ino with
  | .error _ => (.wcc .stale none none, volume)
  | .ok attr =>
      let pre := some (attrToWccPre attr)
      if guard.any fun ctime => decide (attr.ctimeSec ≠ ctime.1 ∨ attr.ctimeNsec ≠ ctime.2) then
        (.wcc .notSync pre (some attr), volume)
      else
        let set := fsSetattr server calls volume ino sattr
        let post := match set.1 with
          | .ok after => some after
          | .error _ => (fsGetattr server (calls.turn 1) set.2 ino).toOption
        (.wcc (statusOf set.1) pre post, set.2)

def handleLookup (dirIno : Nat) (name : Name) : Reply × Volume :=
  let found := fsLookup server calls volume dirIno name
  (.lookup (statusOf found.1)
    (found.1.toOption.map fun child => { handle := xdrPutFh child.1, attr := some child.2 })
    (fsGetattr server (calls.turn 0) found.2 dirIno).toOption, found.2)

/-- The ACCESS3 bits that the reply may grant. -/
def accessAllowed (attr : NfsAttr) : Nat :=
  if attr.type = .dir then 0x1 ||| 0x4 ||| 0x8 ||| 0x2 ||| 0x10 else 0x1 ||| 0x4 ||| 0x8 ||| 0x20

def handleAccess (ino wanted : Nat) : Reply :=
  match fsGetattr server calls volume ino with
  | .error status => .access status none 0
  | .ok attr => .access .ok (some attr) (wanted &&& accessAllowed attr)

/-- `MOUNTD_MAX_IO_SIZE`. -/
def mountdMaxIoSize : Nat := 1024 * 1024

def handleRead (ino offset count : Nat) : Reply :=
  let result := fsRead server calls volume ino offset (min count mountdMaxIoSize)
  .read result.status result.attr result.eof result.data

def handleWrite (ino offset count : Nat) (stable : StableHow) (data : List UInt8) :
    Reply × Volume :=
  let result := fsWrite server calls volume ino offset (data.take (min count data.length)) stable
  (.write result.1.status result.1.pre result.1.post result.1.written result.1.committed, result.2)

/-- The common end of CREATE, MKDIR and SYMLINK. -/
def createdReply (result : ObjResult) : Reply :=
  .created result.status
    (if result.status = .ok then some { handle := xdrPutFh result.ino, attr := result.attr }
      else none)
    result.pre result.post

/-- MKNOD is not supported on any file type. -/
def handleMknod (dirIno : Nat) : Reply :=
  let dirAttr := (fsGetattr server (calls.turn 0) volume dirIno).toOption
  .wcc .notsupp (dirAttr.map attrToWccPre) dirAttr

def xdrPaddedStrlen (name : Name) : Nat := 4 + name.length + (4 - name.length % 4) % 4

def postOpAttrSize (attr : Option NfsAttr) : Nat := if attr.isSome then 88 else 4

/-- The listing from a cookie on, each item with its index. -/
def listingFrom (cookie : Nat) (list : List DirEntryItem) : List (DirEntryItem × Nat) :=
  list.zipIdx.drop (min cookie list.length)

/-- `eof`: the page reached the end of the listing. -/
def pageEnds (cookie : Nat) (list : List DirEntryItem) (page : List (DirEntryItem × Nat)) : Bool :=
  page.length = (listingFrom cookie list).length

def toEntry3 (item : DirEntryItem × Nat) : Entry3 where
  fileid := item.1.fileid
  name := item.1.name
  cookie := item.2 + 1

def readdirEntrySize (item : DirEntryItem × Nat) : Nat := 4 + 8 + xdrPaddedStrlen item.1.name + 8

def readdirPage (attr : Option NfsAttr) (cookie limit : Nat) (list : List DirEntryItem) :
    List (DirEntryItem × Nat) :=
  takePage (fun item => readdirEntrySize item + 8) readdirEntrySize limit
    (4 + postOpAttrSize attr + 8) false (listingFrom cookie list)

-- the cookie verifier is decoded and not looked at
def handleReaddir (dirIno cookie maxBytes : Nat) : Reply × Volume :=
  match fsReaddir server calls volume dirIno with
  | (.error status, attr, left) => (.readdir status attr [] false, left)
  | (.ok list, attr, left) =>
      if maxBytes < 128 then (.readdir .toosmall attr [] false, left)
      else
        let page := readdirPage attr cookie maxBytes list
        (.readdir .ok attr (page.map toEntry3) (pageEnds cookie list page), left)

/-- The attributes that READDIRPLUS adds to an entry. -/
def entryAttr (item : DirEntryItem × Nat) : Option NfsAttr :=
  (fsGetattr server (calls.turn item.2) volume item.1.fileid).toOption

def toEntryPlus3 (attr : Option NfsAttr) (item : DirEntryItem × Nat) : EntryPlus3 :=
  { toEntry3 item with
    attr := attr
    handle := attr.map fun _ => xdrPutFh item.1.fileid }

def readdirplusPage (size : DirEntryItem × Nat → Nat) (attr : Option NfsAttr)
    (cookie limit : Nat) (list : List DirEntryItem) : List (DirEntryItem × Nat) :=
  takePage (fun item => readdirEntrySize item + 88 + 16 + 8) size limit
    (4 + postOpAttrSize attr + 8) false (listingFrom cookie list)

def handleReaddirplus (dirIno cookie maxcount : Nat) : Reply × Volume :=
  match fsReaddir server calls volume dirIno with
  | (.error status, attr, left) => (.readdirplus status attr [] false, left)
  | (.ok list, attr, left) =>
      if maxcount < 256 then (.readdirplus .toosmall attr [] false, left)
      else
        let found := entryAttr server calls left
        let size (item : DirEntryItem × Nat) : Nat :=
          readdirEntrySize item + postOpAttrSize (found item) + (if (found item).isSome then 16 else 4)
        let page := readdirplusPage size attr cookie maxcount list
        (.readdirplus .ok attr (page.map fun item => toEntryPlus3 (found item) item)
          (pageEnds cookie list page), left)

def handleFsstat (ino : Nat) : Reply :=
  let result := fsFsstat server calls volume ino
  .fsstat (statusOf result.1) result.2 result.1.toOption

/-- FSINFO and PATHCONF: constants for any object that answers GETATTR. -/
def handleInfo (ino : Nat) (fields : List Nat) : Reply :=
  match fsGetattr server calls volume ino with
  | .error status => .info status none []
  | .ok attr => .info .ok (some attr) fields

def fsinfoFields : List Nat :=
  [mountdMaxIoSize, 65536, 4096, mountdMaxIoSize, 65536, 4096, 65536, 0x7FFFFFFFFFFFFFFF, 1, 0,
    0x1 ||| 0x2 ||| 0x8 ||| 0x10]

def pathconfFields : List Nat := [1023, 255, 1, 0, 0, 1]

def handleMnt (path : Name) : Reply :=
  if path = [slashByte] ∨ path = [] then .mnt .ok (some (xdrPutFh (fsRootIno volume)))
  else .mnt .noent none

/-- `handle_nfs_proc` and `handle_mount_proc`. A malformed handle is answered before
anything else is looked at. -/
def handleProc (request : Request) : Reply × Volume :=
  match request with
  | .null => (.void, volume)
  | .getattr fh =>
      match xdrGetFh fh with
      | none => (.getattr .badhandle none, volume)
      | some ino =>
          let found := fsGetattr server calls volume ino
          (.getattr (statusOf found) found.toOption, volume)
  | .setattr fh sattr guard =>
      match xdrGetFh fh with
      | none => (.wcc .badhandle none none, volume)
      | some ino => handleSetattr server calls volume ino sattr guard
  | .lookup dir name =>
      match xdrGetFh dir with
      | none => (.lookup .badhandle none none, volume)
      | some dirIno => handleLookup server calls volume dirIno name
  | .access fh wanted =>
      match xdrGetFh fh with
      | none => (.access .badhandle none 0, volume)
      | some ino => (handleAccess server calls volume ino wanted, volume)
  | .readlink fh =>
      match xdrGetFh fh with
      | none => (.readlink .badhandle none [], volume)
      | some ino =>
          let result := fsReadlink server calls volume ino
          (.readlink (statusOf result.1) result.2 (result.1.toOption.getD []), volume)
  | .read fh offset count =>
      match xdrGetFh fh with
      | none => (.read .badhandle none false [], volume)
      | some ino => (handleRead server calls volume ino offset count, volume)
  | .write fh offset count stable data =>
      match xdrGetFh fh with
      | none => (.write .badhandle none none 0 .fileSync, volume)
      | some ino => handleWrite server calls volume ino offset count stable data
  | .create dir name how =>
      match xdrGetFh dir with
      | none => (.created .badhandle none none none, volume)
      | some dirIno =>
          let result := fsCreate server calls volume dirIno name how.mode how.sattr
          (createdReply result.1, result.2)
  | .mkdir dir name sattr =>
      match xdrGetFh dir with
      | none => (.created .badhandle none none none, volume)
      | some dirIno =>
          let result := fsMkdir server calls volume dirIno name (some sattr)
          (createdReply result.1, result.2)
  | .symlink dir name sattr target =>
      match xdrGetFh dir with
      | none => (.created .badhandle none none none, volume)
      | some dirIno =>
          let result := fsSymlink server calls volume dirIno name (some sattr) target
          (createdReply result.1, result.2)
  | .mknod dir _ =>
      match xdrGetFh dir with
      | none => (.wcc .badhandle none none, volume)
      | some dirIno => (handleMknod server calls volume dirIno, volume)
  | .remove dir name =>
      match xdrGetFh dir with
      | none => (.wcc .badhandle none none, volume)
      | some dirIno =>
          let result := fsRemove server calls volume dirIno name
          (.wcc result.1.status result.1.pre result.1.post, result.2)
  | .rmdir dir name =>
      match xdrGetFh dir with
      | none => (.wcc .badhandle none none, volume)
      | some dirIno =>
          let result := fsRmdir server calls volume dirIno name
          (.wcc result.1.status result.1.pre result.1.post, result.2)
  | .rename fromDir fromName toDir toName =>
      match xdrGetFh fromDir, xdrGetFh toDir with
      | some fromDirIno, some toDirIno =>
          let result := fsRename server calls volume fromDirIno fromName toDirIno toName
          (.renamed result.1.status result.1.fromPre result.1.fromPost result.1.toPre
            result.1.toPost, result.2)
      | _, _ => (.renamed .badhandle none none none none, volume)
  | .link fh dir name =>
      match xdrGetFh fh, xdrGetFh dir with
      | some ino, some dirIno =>
          let result := fsLink server calls volume ino dirIno name
          (.linked result.1.status result.1.attr result.1.pre result.1.post, result.2)
      | _, _ => (.linked .badhandle none none none, volume)
  | .readdir dir cookie _ count =>
      match xdrGetFh dir with
      | none => (.readdir .badhandle none [] false, volume)
      | some dirIno => handleReaddir server calls volume dirIno cookie count
  | .readdirplus dir cookie _ _ maxcount =>
      match xdrGetFh dir with
      | none => (.readdirplus .badhandle none [] false, volume)
      | some dirIno => handleReaddirplus server calls volume dirIno cookie maxcount
  | .fsstat fh =>
      match xdrGetFh fh with
      | none => (.fsstat .badhandle none none, volume)
      | some ino => (handleFsstat server calls volume ino, volume)
  | .fsinfo fh =>
      match xdrGetFh fh with
      | none => (.info .badhandle none [], volume)
      | some ino => (handleInfo server calls volume ino fsinfoFields, volume)
  | .pathconf fh =>
      match xdrGetFh fh with
      | none => (.info .badhandle none [], volume)
      | some ino => (handleInfo server calls volume ino pathconfFields, volume)
  | .commit fh _ _ =>
      match xdrGetFh fh with
      | none => (.wcc .badhandle none none, volume)
      | some ino =>
          let result := fsCommit server calls volume ino
          (.wcc result.1.status result.1.pre result.1.post, result.2)
  | .mnt path => (handleMnt volume path, volume)
  | .umnt _ => (.void, fsSyncAll calls volume)
  | .umntall => (.void, fsSyncAll calls volume)

/-- One request of a run, and what the library does during it. -/
structure Exchange where
  request : Request
  calls : Calls

def Server.step (server : Server) (volume : Volume) (exchange : Exchange) : Volume :=
  (handleProc server exchange.calls volume exchange.request).2

def Server.reply (server : Server) (volume : Volume) (exchange : Exchange) : Reply :=
  (handleProc server exchange.calls volume exchange.request).1

end Rufux.Mountd
