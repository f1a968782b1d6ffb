import Mathlib

/-!
The part of NFS version 3 and MOUNT version 3 that `mountd_nfs.c` speaks: status
codes, attributes, and each procedure's arguments and results once XDR is decoded.
-/

namespace Rufux.Mountd

inductive Nfsstat
  | ok | perm | noent | io | nxio | acces | exist | xdev | nodev | notdir | isdir | inval
  | fbig | nospc | rofs | nametoolong | notempty | stale | badhandle | notSync | notsupp
  | toosmall | serverfault
  deriving DecidableEq, Repr

/-- The non-zero `errno` values that `errno_to_nfs3` tells apart. A failing library
call sets one of them, so the source's `e ? e : EIO` always takes `e`. -/
inductive Errno
  | eperm | enoent | eio | enxio | eacces | eexist | exdev | enodev | enotdir | eisdir
  | einval | efbig | enospc | erofs | enametoolong | enotempty | estale | eopnotsupp
  | other (code : Nat)
  deriving DecidableEq, Repr

def errnoToNfs3 : Errno → Nfsstat
  | .eperm => .perm
  | .enoent => .noent
  | .eio => .io
  | .enxio => .nxio
  | .eacces => .acces
  | .eexist => .exist
  | .exdev => .xdev
  | .enodev => .nodev
  | .enotdir => .notdir
  | .eisdir => .isdir
  | .einval => .inval
  | .efbig => .fbig
  | .enospc => .nospc
  | .erofs => .rofs
  | .enametoolong => .nametoolong
  | .enotempty => .notempty
  | .estale => .stale
  | .eopnotsupp => .notsupp
  | .other _ => .io

theorem errnoToNfs3_ne_ok (code : Errno) : errnoToNfs3 code ≠ .ok := by
  cases code <;> simp [errnoToNfs3]

inductive Ftype3
  | reg | dir | blk | chr | lnk | sock | fifo
  deriving DecidableEq, Repr

/-- `NfsAttr` without `rdev1` and `rdev2`, which every filler leaves zero. -/
structure NfsAttr where
  type : Ftype3
  mode : Nat
  nlink : Nat
  uid : Nat
  gid : Nat
  size : Nat
  used : Nat
  fsid : Nat
  fileid : Nat
  atimeSec : Nat
  atimeNsec : Nat
  mtimeSec : Nat
  mtimeNsec : Nat
  ctimeSec : Nat
  ctimeNsec : Nat
  deriving DecidableEq, Repr

/-- `WccPre`; a block whose `valid` is zero is `none`. -/
structure WccPre where
  size : Nat
  mtimeSec : Nat
  mtimeNsec : Nat
  ctimeSec : Nat
  ctimeNsec : Nat
  deriving DecidableEq, Repr

def attrToWccPre (attr : NfsAttr) : WccPre where
  size := attr.size
  mtimeSec := attr.mtimeSec
  mtimeNsec := attr.mtimeNsec
  ctimeSec := attr.ctimeSec
  ctimeNsec := attr.ctimeNsec

inductive TimeHow
  | dontChange
  | serverTime
  | clientTime (sec nsec : Nat)
  deriving DecidableEq, Repr

structure SAttr3 where
  mode : Option Nat
  uid : Option Nat
  gid : Option Nat
  size : Option Nat
  atime : TimeHow
  mtime : TimeHow
  deriving DecidableEq, Repr

/-- A request that sets nothing. -/
def SAttr3.empty : SAttr3 where
  mode := none
  uid := none
  gid := none
  size := none
  atime := .dontChange
  mtime := .dontChange

/-- The daemon's constants: `g_uid`, `g_gid` and `g_fsid`. -/
structure Config where
  uid : Nat
  gid : Nat
  fsid : Nat
  deriving DecidableEq, Repr

/-- A C string without its terminator. -/
abbrev Name := List UInt8

def dotName : Name := [46]

def dotdotName : Name := [46, 46]

def slashByte : UInt8 := 47

def validLeafName (name : Name) : Bool :=
  !name.isEmpty && name != dotName && name != dotdotName && !name.contains slashByte

theorem validLeafName_ne_dot {name : Name} (valid : validLeafName name = true) :
    name ≠ dotName ∧ name ≠ dotdotName := by
  simp only [validLeafName, Bool.and_eq_true, bne_iff_ne] at valid
  exact ⟨valid.1.1.2, valid.1.2⟩

/-- A file handle as it stands on the wire. -/
abbrev Handle := List UInt8

/-- The big-endian value of a byte string. -/
def bigEndian (bytes : List UInt8) : Nat :=
  bytes.foldl (fun value byte => value * 256 + byte.toNat) 0

/-- `xdr_get_fh` past its bounds checks: `none` is the `bad_fh` flag. -/
def xdrGetFh (handle : Handle) : Option Nat :=
  if handle.length = 8 then
    if bigEndian handle = 0 then none else some (bigEndian handle)
  else none

theorem xdrGetFh_ne_zero {handle : Handle} {ino : Nat} (decoded : xdrGetFh handle = some ino) :
    ino ≠ 0 := by
  unfold xdrGetFh at decoded
  split at decoded
  · split at decoded
    · cases decoded
    · cases decoded
      assumption
  · cases decoded

/-- The eight bytes of `xdr_put_fh`. -/
def xdrPutFh (ino : Nat) : Handle :=
  [UInt8.ofNat (ino / 2 ^ 56), UInt8.ofNat (ino / 2 ^ 48), UInt8.ofNat (ino / 2 ^ 40),
    UInt8.ofNat (ino / 2 ^ 32), UInt8.ofNat (ino / 2 ^ 24), UInt8.ofNat (ino / 2 ^ 16),
    UInt8.ofNat (ino / 2 ^ 8), UInt8.ofNat ino]

theorem bigEndian_xdrPutFh (ino : Nat) (bound : ino < 2 ^ 64) :
    bigEndian (xdrPutFh ino) = ino := by
  simp only [bigEndian, xdrPutFh, List.foldl_cons, List.foldl_nil, UInt8.toNat_ofNat']
  omega

/-- A handle the server builds for a 64-bit number other than zero reads back as it. -/
theorem xdrGetFh_xdrPutFh (ino : Nat) (positive : 0 < ino) (bound : ino < 2 ^ 64) :
    xdrGetFh (xdrPutFh ino) = some ino := by
  have value := bigEndian_xdrPutFh ino bound
  have size : (xdrPutFh ino).length = 8 := rfl
  simp only [xdrGetFh, size, value, if_true]
  rw [if_neg (by omega)]

inductive StableHow
  | unstable | dataSync | fileSync
  deriving DecidableEq, Repr

inductive CreateHow
  | unchecked (sattr : SAttr3)
  | guarded (sattr : SAttr3)
  | exclusive (verf : List UInt8)
  deriving DecidableEq, Repr

inductive CreateMode
  | unchecked | guarded | exclusive
  deriving DecidableEq, Repr

def CreateHow.mode : CreateHow → CreateMode
  | .unchecked _ => .unchecked
  | .guarded _ => .guarded
  | .exclusive _ => .exclusive

def CreateHow.sattr : CreateHow → Option SAttr3
  | .unchecked sattr => some sattr
  | .guarded sattr => some sattr
  | .exclusive _ => none

inductive Request
  | null
  | getattr (fh : Handle)
  | setattr (fh : Handle) (sattr : SAttr3) (guard : Option (Nat × Nat))
  | lookup (dir : Handle) (name : Name)
  | access (fh : Handle) (wanted : Nat)
  | readlink (fh : Handle)
  | read (fh : Handle) (offset count : Nat)
  | write (fh : Handle) (offset count : Nat) (stable : StableHow) (data : List UInt8)
  | create (dir : Handle) (name : Name) (how : CreateHow)
  | mkdir (dir : Handle) (name : Name) (sattr : SAttr3)
  | symlink (dir : Handle) (name : Name) (sattr : SAttr3) (target : Name)
  | mknod (dir : Handle) (name : Name)
  | remove (dir : Handle) (name : Name)
  | rmdir (dir : Handle) (name : Name)
  | rename (fromDir : Handle) (fromName : Name) (toDir : Handle) (toName : Name)
  | link (fh dir : Handle) (name : Name)
  | readdir (dir : Handle) (cookie : Nat) (cverf : List UInt8) (count : Nat)
  | readdirplus (dir : Handle) (cookie : Nat) (cverf : List UInt8) (dircount maxcount : Nat)
  | fsstat (fh : Handle)
  | fsinfo (fh : Handle)
  | pathconf (fh : Handle)
  | commit (fh : Handle) (offset count : Nat)
  | mnt (path : Name)
  | umnt (path : Name)
  | umntall
  deriving DecidableEq, Repr

/-- Offsets and cookies are 64-bit numbers, counts 32-bit ones. -/
def Request.InRange : Request → Prop
  | .read _ offset count => offset < 2 ^ 64 ∧ count < 2 ^ 32
  | .write _ offset count _ _ => offset < 2 ^ 64 ∧ count < 2 ^ 32
  | .readdir _ cookie _ count => cookie < 2 ^ 64 ∧ count < 2 ^ 32
  | .readdirplus _ cookie _ dircount maxcount =>
      cookie < 2 ^ 64 ∧ dircount < 2 ^ 32 ∧ maxcount < 2 ^ 32
  | .commit _ offset count => offset < 2 ^ 64 ∧ count < 2 ^ 32
  | _ => True

/-- The handles that a request carries. -/
def Request.handles : Request → List Handle
  | .null | .mnt _ | .umnt _ | .umntall => []
  | .getattr fh | .setattr fh _ _ | .access fh _ | .readlink fh | .read fh _ _ => [fh]
  | .write fh _ _ _ _ | .fsstat fh | .fsinfo fh | .pathconf fh | .commit fh _ _ => [fh]
  | .lookup dir _ | .create dir _ _ | .mkdir dir _ _ | .symlink dir _ _ _ => [dir]
  | .mknod dir _ | .remove dir _ | .rmdir dir _ | .readdir dir _ _ _ => [dir]
  | .readdirplus dir _ _ _ _ => [dir]
  | .rename fromDir _ toDir _ => [fromDir, toDir]
  | .link fh dir _ => [fh, dir]

structure DirEntryItem where
  fileid : Nat
  name : Name
  deriving DecidableEq, Repr

/-- One entry of a READDIR reply: file id, name and cookie. -/
structure Entry3 where
  fileid : Nat
  name : Name
  cookie : Nat
  deriving DecidableEq, Repr

/-- One entry of a READDIRPLUS reply. -/
structure EntryPlus3 extends Entry3 where
  attr : Option NfsAttr
  handle : Option Handle
  deriving DecidableEq, Repr

structure FsStatInfo where
  tbytes : Nat
  fbytes : Nat
  abytes : Nat
  tfiles : Nat
  ffiles : Nat
  afiles : Nat
  deriving DecidableEq, Repr

/-- An object a reply names: its handle, and the attribute block that the reply marks
as present (`none` when the operation never wrote the block). -/
structure NamedObject where
  handle : Handle
  attr : Option NfsAttr
  deriving DecidableEq, Repr

inductive Reply
  | void
  | getattr (status : Nfsstat) (attr : Option NfsAttr)
  | wcc (status : Nfsstat) (pre : Option WccPre) (post : Option NfsAttr)
  | lookup (status : Nfsstat) (object : Option NamedObject) (dirAttr : Option NfsAttr)
  | access (status : Nfsstat) (attr : Option NfsAttr) (allowed : Nat)
  | readlink (status : Nfsstat) (attr : Option NfsAttr) (text : Name)
  | read (status : Nfsstat) (attr : Option NfsAttr) (eof : Bool) (data : List UInt8)
  | write (status : Nfsstat) (pre : Option WccPre) (post : Option NfsAttr)
      (written : Nat) (committed : StableHow)
  | created (status : Nfsstat) (object : Option NamedObject)
      (pre : Option WccPre) (post : Option NfsAttr)
  | renamed (status : Nfsstat) (fromPre : Option WccPre) (fromPost : Option NfsAttr)
      (toPre : Option WccPre) (toPost : Option NfsAttr)
  | linked (status : Nfsstat) (attr : Option NfsAttr)
      (pre : Option WccPre) (post : Option NfsAttr)
  | readdir (status : Nfsstat) (dirAttr : Option NfsAttr) (entries : List Entry3) (eof : Bool)
  | readdirplus (status : Nfsstat) (dirAttr : Option NfsAttr) (entries : List EntryPlus3)
      (eof : Bool)
  | fsstat (status : Nfsstat) (attr : Option NfsAttr) (info : Option FsStatInfo)
  | info (status : Nfsstat) (attr : Option NfsAttr) (fields : List Nat)
  | mnt (status : Nfsstat) (handle : Option Handle)
  deriving DecidableEq, Repr

def Reply.status : Reply → Nfsstat
  | .void => .ok
  | .getattr status _ => status
  | .wcc status _ _ => status
  | .lookup status _ _ => status
  | .access status _ _ => status
  | .readlink status _ _ => status
  | .read status _ _ _ => status
  | .write status _ _ _ _ => status
  | .created status _ _ _ => status
  | .renamed status _ _ _ _ => status
  | .linked status _ _ _ => status
  | .readdir status _ _ _ => status
  | .readdirplus status _ _ _ => status
  | .fsstat status _ _ => status
  | .info status _ _ => status
  | .mnt status _ => status

/-- The count and the stability that a WRITE reply announces. -/
def Reply.written : Reply → Nat
  | .write _ _ _ written _ => written
  | _ => 0

def Reply.committed : Reply → StableHow
  | .write _ _ _ _ committed => committed
  | _ => .unstable

/-- The handles that a reply gives out. -/
def Reply.handles : Reply → List Handle
  | .lookup _ object _ => (object.map NamedObject.handle).toList
  | .created _ object _ _ => (object.map NamedObject.handle).toList
  | .readdirplus _ _ entries _ => entries.filterMap EntryPlus3.handle
  | .mnt _ handle => handle.toList
  | _ => []

/-- What REMOVE and RMDIR report besides the volume. -/
structure DirResult where
  status : Nfsstat
  pre : Option WccPre
  post : Option NfsAttr
  deriving DecidableEq, Repr

/-- What CREATE, MKDIR and SYMLINK report: `ino` and `attr` are the out-parameters
`new_ino_out` and `obj_attr_out` (`none` when nothing was stored there). -/
structure ObjResult where
  status : Nfsstat
  ino : Nat
  attr : Option NfsAttr
  pre : Option WccPre
  post : Option NfsAttr
  deriving DecidableEq, Repr

structure RenameResult where
  status : Nfsstat
  fromPre : Option WccPre
  fromPost : Option NfsAttr
  toPre : Option WccPre
  toPost : Option NfsAttr
  deriving DecidableEq, Repr

structure LinkResult where
  status : Nfsstat
  attr : Option NfsAttr
  pre : Option WccPre
  post : Option NfsAttr
  deriving DecidableEq, Repr

structure ReadResult where
  status : Nfsstat
  data : List UInt8
  eof : Bool
  attr : Option NfsAttr
  deriving DecidableEq, Repr

structure WriteResult where
  status : Nfsstat
  written : Nat
  committed : StableHow
  pre : Option WccPre
  post : Option NfsAttr
  deriving DecidableEq, Repr

/-- The refusal of an operation that has read the directory but changed nothing: the
attributes it read stand as both the pre-operation and the post-operation block. -/
def DirResult.refuse (status : Nfsstat) (dirAttr : NfsAttr) : DirResult :=
  { status := status, pre := some (attrToWccPre dirAttr), post := some dirAttr }

def ObjResult.refuse (status : Nfsstat) (dirAttr : NfsAttr) : ObjResult :=
  { status := status, ino := 0, attr := none, pre := some (attrToWccPre dirAttr),
    post := some dirAttr }

/-- The refusal of an operation before any attribute was read. -/
def DirResult.early (status : Nfsstat) : DirResult :=
  { status := status, pre := none, post := none }

def ObjResult.early (status : Nfsstat) : ObjResult :=
  { status := status, ino := 0, attr := none, pre := none, post := none }

def RenameResult.refuse (status : Nfsstat) (fromAttr toAttr : NfsAttr) : RenameResult :=
  { status := status, fromPre := some (attrToWccPre fromAttr), fromPost := some fromAttr,
    toPre := some (attrToWccPre toAttr), toPost := some toAttr }

end Rufux.Mountd
