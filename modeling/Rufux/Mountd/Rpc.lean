import Rufux.Library.Calls
import Rufux.Library.Xdr
import Rufux.Mountd.Server

/-!
The bytes of a call and of its reply: the XDR reader and writer of `mountd_nfs.c`, its
procedure handlers from the first argument to the last result, and `dispatch_rpc_call`.
The `fs_*` functions are an interface here.
-/

namespace Rufux.Mountd

open Rufux.Library

/-- `XdrReader`: the bytes from `pos` on, and the error that sticks. -/
structure XdrReader where
  rest : List UInt8
  err : Bool
  deriving DecidableEq

def XdrReader.fail (reader : XdrReader) : XdrReader := { reader with err := true }

def xdrGetU32 (reader : XdrReader) : Nat × XdrReader :=
  if reader.err ∨ reader.rest.length < 4 then (0, reader.fail)
  else (wordAt 0 reader.rest, { reader with rest := reader.rest.drop 4 })

def xdrGetU64 (reader : XdrReader) : Nat × XdrReader :=
  let hi := xdrGetU32 reader
  let lo := xdrGetU32 hi.2
  (hi.1 * 2 ^ 32 + lo.1, lo.2)

/-- `none` is the return value -1. -/
def xdrGetFixed (size : Nat) (reader : XdrReader) : Option (List UInt8) × XdrReader :=
  if reader.err ∨ reader.rest.length < size + padding size then (none, reader.fail)
  else
    (some (reader.rest.take size), { reader with rest := reader.rest.drop (size + padding size) })

/-- `xdr_get_opaque_ptr`, and `xdr_skip_opaque`, which does not keep the bytes. -/
def xdrGetOpaque (maxLen : Nat) (reader : XdrReader) : Option (List UInt8) × XdrReader :=
  let size := xdrGetU32 reader
  if size.2.err ∨ maxLen < size.1 then (none, size.2.fail) else xdrGetFixed size.1 size.2

def xdrGetStr (cap : Nat) (reader : XdrReader) : Option Name × XdrReader :=
  let size := xdrGetU32 reader
  if size.2.err ∨ cap ≤ size.1 then (none, size.2.fail)
  else
    match xdrGetFixed size.1 size.2 with
    | (none, left) => (none, left)
    | (some text, left) => if text.contains 0 then (none, left.fail) else (some text, left)

/-- `xdr_get_fh`: a handle that is not one of the server's is told by `xdrGetFh`. -/
def xdrGetHandle (reader : XdrReader) : Option Handle × XdrReader := xdrGetOpaque 64 reader

def xdrGetOptional {α : Type} (get : XdrReader → α × XdrReader) (reader : XdrReader) :
    Option α × XdrReader :=
  let follows := xdrGetU32 reader
  if follows.1 = 0 then (none, follows.2)
  else
    let value := get follows.2
    (some value.1, value.2)

def xdrGetTime (reader : XdrReader) : (Nat × Nat) × XdrReader :=
  let sec := xdrGetU32 reader
  let nsec := xdrGetU32 sec.2
  ((sec.1, nsec.1), nsec.2)

-- a number that is no `time_how` changes nothing, as `DONT_CHANGE` does
def xdrGetTimeHow (reader : XdrReader) : TimeHow × XdrReader :=
  let how := xdrGetU32 reader
  if how.1 = 2 then
    let time := xdrGetTime how.2
    (.clientTime time.1.1 time.1.2, time.2)
  else if how.1 = 1 then (.serverTime, how.2)
  else (.dontChange, how.2)

def xdrGetSattr3 (reader : XdrReader) : Option SAttr3 × XdrReader :=
  let mode := xdrGetOptional xdrGetU32 reader
  let uid := xdrGetOptional xdrGetU32 mode.2
  let gid := xdrGetOptional xdrGetU32 uid.2
  let size := xdrGetOptional xdrGetU64 gid.2
  let atime := xdrGetTimeHow size.2
  let mtime := xdrGetTimeHow atime.2
  if mtime.2.err then (none, mtime.2)
  else
    (some { mode := mode.1, uid := uid.1, gid := gid.1, size := size.1, atime := atime.1,
            mtime := mtime.1 }, mtime.2)

def Nfsstat.code : Nfsstat → Nat
  | .ok => 0
  | .perm => 1
  | .noent => 2
  | .io => 5
  | .nxio => 6
  | .acces => 13
  | .exist => 17
  | .xdev => 18
  | .nodev => 19
  | .notdir => 20
  | .isdir => 21
  | .inval => 22
  | .fbig => 27
  | .nospc => 28
  | .rofs => 30
  | .nametoolong => 63
  | .notempty => 66
  | .stale => 70
  | .badhandle => 10001
  | .notSync => 10002
  | .notsupp => 10004
  | .toosmall => 10005
  | .serverfault => 10006

def Ftype3.code : Ftype3 → Nat
  | .reg => 1
  | .dir => 2
  | .blk => 3
  | .chr => 4
  | .lnk => 5
  | .sock => 6
  | .fifo => 7

def StableHow.code : StableHow → Nat
  | .unstable => 0
  | .dataSync => 1
  | .fileSync => 2

/-- `NfsAttr` as it lies in memory, where `type` is any word. -/
structure AttrWords where
  type : Nat
  mode : Nat
  nlink : Nat
  uid : Nat
  gid : Nat
  size : Nat
  used : Nat
  rdev1 : Nat
  rdev2 : Nat
  fsid : Nat
  fileid : Nat
  atimeSec : Nat
  atimeNsec : Nat
  mtimeSec : Nat
  mtimeNsec : Nat
  ctimeSec : Nat
  ctimeNsec : Nat
  deriving DecidableEq, Repr

def NfsAttr.words (attr : NfsAttr) : AttrWords where
  type := attr.type.code
  mode := attr.mode
  nlink := attr.nlink
  uid := attr.uid
  gid := attr.gid
  size := attr.size
  used := attr.used
  rdev1 := 0
  rdev2 := 0
  fsid := attr.fsid
  fileid := attr.fileid
  atimeSec := attr.atimeSec
  atimeNsec := attr.atimeNsec
  mtimeSec := attr.mtimeSec
  mtimeNsec := attr.mtimeNsec
  ctimeSec := attr.ctimeSec
  ctimeNsec := attr.ctimeNsec

/-- A status that is not `NFS3_OK`. -/
structure NfsError where
  status : Nfsstat
  failed : status ≠ .ok

def outcomeStatus {α : Type} : Except NfsError α → Nfsstat
  | .error error => error.status
  | .ok _ => .ok

/-- The calls that the handlers make to the `fs_*` functions. -/
inductive FsOp
  | rootIno
  | syncAll
  | getattr (ino : Nat)
  | setattr (ino : Nat) (sattr : SAttr3)
  | lookup (dirIno : Nat) (name : Name)
  | readlink (ino : Nat)
  | read (ino offset count : Nat)
  | write (ino offset : Nat) (data : List UInt8) (stable : Nat)
  | create (dirIno : Nat) (name : Name) (mode : CreateMode) (sattr : Option SAttr3)
  | mkdir (dirIno : Nat) (name : Name) (sattr : SAttr3)
  | symlink (dirIno : Nat) (name : Name) (sattr : SAttr3) (target : Name)
  | remove (dirIno : Nat) (name : Name)
  | rmdir (dirIno : Nat) (name : Name)
  | rename (fromDirIno : Nat) (fromName : Name) (toDirIno : Nat) (toName : Name)
  | link (ino dirIno : Nat) (name : Name)
  | readdir (dirIno : Nat)
  | fsstat (ino : Nat)
  | commit (ino : Nat)
  deriving DecidableEq

/-- What a call reports through its return value and its out-parameters. -/
@[reducible]
def FsOp.Result : FsOp → Type
  | .rootIno => Nat
  | .syncAll => Unit
  | .getattr _ | .setattr _ _ => Except NfsError NfsAttr
  | .lookup _ _ => Except NfsError (Nat × NfsAttr)
  | .readlink _ => Except NfsError Name × Option NfsAttr
  | .read _ _ _ => ReadResult
  | .write _ _ _ _ => WriteResult
  | .create _ _ _ _ | .mkdir _ _ _ | .symlink _ _ _ _ => ObjResult
  | .remove _ _ | .rmdir _ _ | .commit _ => DirResult
  | .rename _ _ _ _ => RenameResult
  | .link _ _ _ => LinkResult
  | .readdir _ => Except NfsError (List DirEntryItem) × Option NfsAttr
  | .fsstat _ => Except NfsError FsStatInfo × Option NfsAttr

/-- The operations that change the volume. -/
def FsOp.mutates : FsOp → Bool
  | .setattr _ _ | .write _ _ _ _ | .create _ _ _ _ | .mkdir _ _ _ | .symlink _ _ _ _ => true
  | .remove _ _ | .rmdir _ _ | .rename _ _ _ _ | .link _ _ _ => true
  | _ => false

abbrev FsEvent : Type := CallEvent FsOp FsOp.Result

/-- The return values -1 and -2 of a handler. -/
inductive Refusal
  | garbageArgs
  | procUnavail
  deriving DecidableEq, Repr

/-- The arguments still to be read, and the reply so far. -/
structure Wire where
  reader : XdrReader
  out : List UInt8

def Rpc (α : Type) : Type := Wire → CallProg FsOp FsOp.Result (Except Refusal α × Wire)

namespace Rpc

variable {α β : Type}

def bind (first : Rpc α) (rest : α → Rpc β) : Rpc β := fun wire =>
  (first wire).bind fun
    | (.error refusal, left) => .done (.error refusal, left)
    | (.ok value, left) => rest value left

instance : Monad Rpc where
  pure value := fun wire => .done (.ok value, wire)
  bind := bind

def refuse (refusal : Refusal) : Rpc α := fun wire => .done (.error refusal, wire)

def call (op : FsOp) : Rpc op.Result := fun wire =>
  .call op fun result => .done (.ok result, wire)

/-- An argument that the handler does not check by itself. -/
def arg (get : XdrReader → α × XdrReader) : Rpc α := fun wire =>
  let found := get wire.reader
  .done (.ok found.1, { wire with reader := found.2 })

/-- An argument that the handler checks: `if (get(..) != 0) return -1`. -/
def checkedArg (get : XdrReader → Option α × XdrReader) : Rpc α := fun wire =>
  match get wire.reader with
  | (none, left) => .done (.error .garbageArgs, { wire with reader := left })
  | (some value, left) => .done (.ok value, { wire with reader := left })

/-- `if (r->err) return -1`. -/
def checkArgs : Rpc Unit := fun wire =>
  if wire.reader.err then .done (.error .garbageArgs, wire) else .done (.ok (), wire)

def put (bytes : List UInt8) : Rpc Unit := fun wire =>
  .done (.ok (), { wire with out := wire.out ++ bytes })

def outLength : Rpc Nat := fun wire => .done (.ok wire.out.length, wire)

end Rpc

open Rpc

def xdrPutU32 (value : Nat) : Rpc Unit := put (wordBytes value)

def xdrPutU64 (value : Nat) : Rpc Unit := do
  xdrPutU32 (value / 2 ^ 32)
  xdrPutU32 value

def xdrPutFixed (bytes : List UInt8) : Rpc Unit := put (paddedBytes bytes)

/-- `xdr_put_opaque`: the length is a 32-bit number. -/
def xdrPutOpaque (bytes : List UInt8) : Rpc Unit := do
  xdrPutU32 (bytes.length % 2 ^ 32)
  xdrPutFixed (bytes.take (bytes.length % 2 ^ 32))

def xdrPutStr (text : Name) : Rpc Unit := xdrPutOpaque text

def xdrPutHandle (ino : Nat) : Rpc Unit := xdrPutOpaque (xdrPutFh ino)

def putStatus (status : Nfsstat) : Rpc Unit := xdrPutU32 status.code

def xdrPutOptional {α : Type} (put : α → Rpc Unit) : Option α → Rpc Unit
  | none => xdrPutU32 0
  | some value => do
      xdrPutU32 1
      put value

def xdrPutPostOpFh (ino : Option Nat) : Rpc Unit := xdrPutOptional xdrPutHandle ino

def xdrPutFattr3 (attr : AttrWords) : Rpc Unit := do
  xdrPutU32 attr.type
  xdrPutU32 (attr.mode % 0o10000)
  xdrPutU32 attr.nlink
  xdrPutU32 attr.uid
  xdrPutU32 attr.gid
  xdrPutU64 attr.size
  xdrPutU64 attr.used
  xdrPutU32 attr.rdev1
  xdrPutU32 attr.rdev2
  xdrPutU64 attr.fsid
  xdrPutU64 attr.fileid
  xdrPutU32 attr.atimeSec
  xdrPutU32 attr.atimeNsec
  xdrPutU32 attr.mtimeSec
  xdrPutU32 attr.mtimeNsec
  xdrPutU32 attr.ctimeSec
  xdrPutU32 attr.ctimeNsec

def xdrPutPostOpAttr (attr : Option NfsAttr) : Rpc Unit :=
  xdrPutOptional (fun found => xdrPutFattr3 found.words) attr

def xdrPutPreOpAttr (pre : Option WccPre) : Rpc Unit :=
  xdrPutOptional (fun found => do
    xdrPutU64 found.size
    xdrPutU32 found.mtimeSec
    xdrPutU32 found.mtimeNsec
    xdrPutU32 found.ctimeSec
    xdrPutU32 found.ctimeNsec) pre

def xdrPutWccData (pre : Option WccPre) (post : Option NfsAttr) : Rpc Unit := do
  xdrPutPreOpAttr pre
  xdrPutPostOpAttr post

/-- What a handler writes only under `NFS3_OK`. -/
def whenOk (status : Nfsstat) (body : Rpc Unit) : Rpc Unit :=
  if status = .ok then body else pure ()

def whenFound {α : Type} (found : Except NfsError α) (body : α → Rpc Unit) : Rpc Unit :=
  match found with
  | .error _ => pure ()
  | .ok value => body value

/-- The process behind the handlers: `g_writeverf`, and the words that the local variable
`attr` of `handle_nfs_proc` holds before anything is stored in it. -/
structure Daemon where
  writeverf : List UInt8
  writeverf_length : writeverf.length = 8
  stack : AttrWords

def nfsproc3Getattr : Rpc Unit := do
  let fh ← checkedArg xdrGetHandle
  match xdrGetFh fh with
  | none => putStatus .badhandle
  | some ino => do
      let found ← call (.getattr ino)
      putStatus (outcomeStatus found)
      whenFound found fun attr => xdrPutFattr3 attr.words

def setattrGuarded (ino : Nat) (sattr : SAttr3) (guard : Option (Nat × Nat)) : Rpc Unit := do
  let before ← call (.getattr ino)
  match before with
  | .error _ => do
      putStatus .stale
      xdrPutWccData none none
  | .ok attr =>
      if guard.any fun ctime => decide (attr.ctimeSec ≠ ctime.1 ∨ attr.ctimeNsec ≠ ctime.2) then do
        putStatus .notSync
        xdrPutWccData (some (attrToWccPre attr)) (some attr)
      else do
        let set ← call (.setattr ino sattr)
        match set with
        | .ok after => do
            putStatus .ok
            xdrPutWccData (some (attrToWccPre attr)) (some after)
        | .error error => do
            let after ← call (.getattr ino)
            putStatus error.status
            xdrPutWccData (some (attrToWccPre attr)) after.toOption

def nfsproc3Setattr : Rpc Unit := do
  let fh ← checkedArg xdrGetHandle
  let sattr ← checkedArg xdrGetSattr3
  let guard ← arg (xdrGetOptional xdrGetTime)
  checkArgs
  match xdrGetFh fh with
  | none => do
      putStatus .badhandle
      xdrPutWccData none none
  | some ino => setattrGuarded ino sattr guard

def nfsproc3Lookup : Rpc Unit := do
  let dir ← checkedArg xdrGetHandle
  let name ← checkedArg (xdrGetStr 1025)
  match xdrGetFh dir with
  | none => do
      putStatus .badhandle
      xdrPutPostOpAttr none
  | some dirIno => do
      let found ← call (.lookup dirIno name)
      let dirAttr ← call (.getattr dirIno)
      match found with
      | .error error => do
          putStatus error.status
          xdrPutPostOpAttr dirAttr.toOption
      | .ok (childIno, attr) => do
          putStatus .ok
          xdrPutHandle childIno
          xdrPutPostOpAttr (some attr)
          xdrPutPostOpAttr dirAttr.toOption

def nfsproc3Access : Rpc Unit := do
  let fh ← checkedArg xdrGetHandle
  let wanted ← arg xdrGetU32
  checkArgs
  match xdrGetFh fh with
  | none => do
      putStatus .badhandle
      xdrPutPostOpAttr none
  | some ino => do
      let found ← call (.getattr ino)
      putStatus (outcomeStatus found)
      xdrPutPostOpAttr found.toOption
      whenFound found fun attr => xdrPutU32 (wanted &&& accessAllowed attr)

def nfsproc3Readlink : Rpc Unit := do
  let fh ← checkedArg xdrGetHandle
  match xdrGetFh fh with
  | none => do
      putStatus .badhandle
      xdrPutPostOpAttr none
  | some ino => do
      let result ← call (.readlink ino)
      putStatus (outcomeStatus result.1)
      xdrPutPostOpAttr result.2
      whenFound result.1 xdrPutStr

def nfsproc3Read : Rpc Unit := do
  let fh ← checkedArg xdrGetHandle
  let offset ← arg xdrGetU64
  let count ← arg xdrGetU32
  checkArgs
  match xdrGetFh fh with
  | none => do
      putStatus .badhandle
      xdrPutPostOpAttr none
  | some ino => do
      let result ← call (.read ino offset (min count mountdMaxIoSize))
      putStatus result.status
      xdrPutPostOpAttr result.attr
      whenOk result.status do
        xdrPutU32 result.data.length
        xdrPutU32 (if result.eof then 1 else 0)
        xdrPutOpaque result.data

def nfsproc3Write (daemon : Daemon) : Rpc Unit := do
  let fh ← checkedArg xdrGetHandle
  let offset ← arg xdrGetU64
  let count ← arg xdrGetU32
  let stable ← arg xdrGetU32
  let data ← checkedArg (xdrGetOpaque mountdMaxIoSize)
  match xdrGetFh fh with
  | none => do
      putStatus .badhandle
      xdrPutWccData none none
  | some ino => do
      let result ← call (.write ino offset (data.take (min count data.length)) stable)
      putStatus result.status
      xdrPutWccData result.pre result.post
      whenOk result.status do
        xdrPutU32 result.written
        xdrPutU32 result.committed.code
        xdrPutFixed daemon.writeverf

/-- The mode of a CREATE and what goes with it; the verifier of an exclusive one is read
and dropped. -/
def createHow : Rpc (CreateMode × Option SAttr3) := do
  let cmode ← arg xdrGetU32
  match cmode with
  | 0 => do
      let sattr ← checkedArg xdrGetSattr3
      pure (.unchecked, some sattr)
  | 1 => do
      let sattr ← checkedArg xdrGetSattr3
      pure (.guarded, some sattr)
  | 2 => do
      let _ ← checkedArg (xdrGetFixed 8)
      pure (.exclusive, none)
  | _ => refuse .garbageArgs

/-- The results of CREATE, MKDIR and SYMLINK: under `NFS3_OK` the block of the new object
is marked as present whether or not the operation stored it. -/
def putCreated (daemon : Daemon) (result : ObjResult) : Rpc Unit := do
  putStatus result.status
  whenOk result.status do
    xdrPutPostOpFh (some result.ino)
    xdrPutU32 1
    xdrPutFattr3 ((result.attr.map NfsAttr.words).getD daemon.stack)
  xdrPutWccData result.pre result.post

def nfsproc3Create (daemon : Daemon) : Rpc Unit := do
  let dir ← checkedArg xdrGetHandle
  let name ← checkedArg (xdrGetStr 1025)
  let how ← createHow
  match xdrGetFh dir with
  | none => do
      putStatus .badhandle
      xdrPutWccData none none
  | some dirIno => do
      let result ← call (.create dirIno name how.1 how.2)
      putCreated daemon result

def nfsproc3Mkdir (daemon : Daemon) : Rpc Unit := do
  let dir ← checkedArg xdrGetHandle
  let name ← checkedArg (xdrGetStr 1025)
  let sattr ← checkedArg xdrGetSattr3
  match xdrGetFh dir with
  | none => do
      putStatus .badhandle
      xdrPutWccData none none
  | some dirIno => do
      let result ← call (.mkdir dirIno name sattr)
      putCreated daemon result

def nfsproc3Symlink (daemon : Daemon) : Rpc Unit := do
  let dir ← checkedArg xdrGetHandle
  let name ← checkedArg (xdrGetStr 1025)
  let sattr ← checkedArg xdrGetSattr3
  let target ← checkedArg (xdrGetStr pathMax)
  match xdrGetFh dir with
  | none => do
      putStatus .badhandle
      xdrPutWccData none none
  | some dirIno => do
      let result ← call (.symlink dirIno name sattr target)
      putCreated daemon result

/-- The rest of the arguments of a MKNOD, which depends on the type of the node. -/
def mknodArgs (ftype : Nat) : Rpc Unit :=
  if ftype = Ftype3.chr.code ∨ ftype = Ftype3.blk.code then do
    let _ ← checkedArg xdrGetSattr3
    let _ ← arg xdrGetU32
    let _ ← arg xdrGetU32
    pure ()
  else if ftype = Ftype3.sock.code ∨ ftype = Ftype3.fifo.code then do
    let _ ← checkedArg xdrGetSattr3
    pure ()
  else pure ()

def nfsproc3Mknod : Rpc Unit := do
  let dir ← checkedArg xdrGetHandle
  let _ ← checkedArg (xdrGetStr 1025)
  let ftype ← arg xdrGetU32
  mknodArgs ftype
  checkArgs
  match xdrGetFh dir with
  | none => do
      putStatus .badhandle
      xdrPutWccData none none
  | some dirIno => do
      let found ← call (.getattr dirIno)
      putStatus .notsupp
      xdrPutWccData (found.toOption.map attrToWccPre) found.toOption

/-- REMOVE and RMDIR. -/
def nfsproc3Unlink (unlink : Nat → Name → Rpc DirResult) : Rpc Unit := do
  let dir ← checkedArg xdrGetHandle
  let name ← checkedArg (xdrGetStr 1025)
  match xdrGetFh dir with
  | none => do
      putStatus .badhandle
      xdrPutWccData none none
  | some dirIno => do
      let result ← unlink dirIno name
      putStatus result.status
      xdrPutWccData result.pre result.post

def nfsproc3Remove : Rpc Unit := nfsproc3Unlink fun dirIno name => call (.remove dirIno name)

def nfsproc3Rmdir : Rpc Unit := nfsproc3Unlink fun dirIno name => call (.rmdir dirIno name)

def nfsproc3Rename : Rpc Unit := do
  let fromDir ← checkedArg xdrGetHandle
  let fromName ← checkedArg (xdrGetStr 1025)
  let toDir ← checkedArg xdrGetHandle
  let toName ← checkedArg (xdrGetStr 1025)
  match xdrGetFh fromDir, xdrGetFh toDir with
  | some fromDirIno, some toDirIno => do
      let result ← call (.rename fromDirIno fromName toDirIno toName)
      putStatus result.status
      xdrPutWccData result.fromPre result.fromPost
      xdrPutWccData result.toPre result.toPost
  | _, _ => do
      putStatus .badhandle
      xdrPutWccData none none
      xdrPutWccData none none

def nfsproc3Link : Rpc Unit := do
  let fh ← checkedArg xdrGetHandle
  let dir ← checkedArg xdrGetHandle
  let name ← checkedArg (xdrGetStr 1025)
  match xdrGetFh fh, xdrGetFh dir with
  | some ino, some dirIno => do
      let result ← call (.link ino dirIno name)
      putStatus result.status
      xdrPutPostOpAttr result.attr
      xdrPutWccData result.pre result.post
  | _, _ => do
      putStatus .badhandle
      xdrPutPostOpAttr none
      xdrPutWccData none none

def putEntry3 (item : DirEntryItem × Nat) : Rpc Unit := do
  xdrPutU64 item.1.fileid
  xdrPutStr item.1.name
  xdrPutU64 (item.2 + 1)

/-- What follows the entries; `eof` is `idx >= list.count`. -/
def endEntries (eof : Bool) : Rpc Unit := do
  xdrPutU32 0
  xdrPutU32 (if eof then 1 else 0)

/-- The loop of READDIR from some entry on, and what follows it. -/
def putEntries (start limit : Nat) : List (DirEntryItem × Nat) → Bool → Rpc Unit
  | [], _ => endEntries true
  | item :: rest, emitted => do
      let length ← outLength
      if emitted ∧ limit < length - start + readdirEntrySize item + 8 then endEntries false
      else do
        xdrPutU32 1
        putEntry3 item
        putEntries start limit rest true

/-- What READDIR and READDIRPLUS have in common from the listing on. -/
def putListing (dirIno cookie least limit : Nat)
    (entries : Nat → List (DirEntryItem × Nat) → Rpc Unit) : Rpc Unit := do
  let listed ← call (.readdir dirIno)
  match listed.1 with
  | .error error => do
      putStatus error.status
      xdrPutPostOpAttr listed.2
  | .ok list =>
      if limit < least then do
        putStatus .toosmall
        xdrPutPostOpAttr listed.2
      else do
        let start ← outLength
        putStatus .ok
        xdrPutPostOpAttr listed.2
        xdrPutFixed (List.replicate 8 0)
        entries start (listingFrom cookie list)

def nfsproc3Readdir : Rpc Unit := do
  let dir ← checkedArg xdrGetHandle
  let cookie ← arg xdrGetU64
  let _ ← checkedArg (xdrGetFixed 8)
  let maxBytes ← arg xdrGetU32
  checkArgs
  match xdrGetFh dir with
  | none => do
      putStatus .badhandle
      xdrPutPostOpAttr none
  | some dirIno =>
      putListing dirIno cookie 128 maxBytes fun start items => putEntries start maxBytes items false

/-- The loop of READDIRPLUS, which asks for the attributes of each entry. -/
def putEntriesPlus (start limit : Nat) : List (DirEntryItem × Nat) → Bool → Rpc Unit
  | [], _ => endEntries true
  | item :: rest, emitted => do
      let length ← outLength
      if emitted ∧ limit < length - start + (readdirEntrySize item + 88 + 16) + 8 then
        endEntries false
      else do
        let found ← call (.getattr item.1.fileid)
        xdrPutU32 1
        putEntry3 item
        xdrPutPostOpAttr found.toOption
        xdrPutPostOpFh (found.toOption.map fun _ => item.1.fileid)
        putEntriesPlus start limit rest true

def nfsproc3Readdirplus : Rpc Unit := do
  let dir ← checkedArg xdrGetHandle
  let cookie ← arg xdrGetU64
  let _ ← checkedArg (xdrGetFixed 8)
  let _ ← arg xdrGetU32
  let maxcount ← arg xdrGetU32
  checkArgs
  match xdrGetFh dir with
  | none => do
      putStatus .badhandle
      xdrPutPostOpAttr none
  | some dirIno =>
      putListing dirIno cookie 256 maxcount fun start items =>
        putEntriesPlus start maxcount items false

def nfsproc3Fsstat : Rpc Unit := do
  let fh ← checkedArg xdrGetHandle
  match xdrGetFh fh with
  | none => do
      putStatus .badhandle
      xdrPutPostOpAttr none
  | some ino => do
      let result ← call (.fsstat ino)
      putStatus (outcomeStatus result.1)
      xdrPutPostOpAttr result.2
      whenFound result.1 fun info => do
        xdrPutU64 info.tbytes
        xdrPutU64 info.fbytes
        xdrPutU64 info.abytes
        xdrPutU64 info.tfiles
        xdrPutU64 info.ffiles
        xdrPutU64 info.afiles
        xdrPutU32 0

/-- FSINFO and PATHCONF: constants for any object that answers GETATTR. -/
def nfsproc3Info (fields : Rpc Unit) : Rpc Unit := do
  let fh ← checkedArg xdrGetHandle
  match xdrGetFh fh with
  | none => do
      putStatus .badhandle
      xdrPutPostOpAttr none
  | some ino => do
      let found ← call (.getattr ino)
      putStatus (outcomeStatus found)
      xdrPutPostOpAttr found.toOption
      whenFound found fun _ => fields

def nfsproc3Fsinfo : Rpc Unit := nfsproc3Info do
  xdrPutU32 mountdMaxIoSize
  xdrPutU32 65536
  xdrPutU32 4096
  xdrPutU32 mountdMaxIoSize
  xdrPutU32 65536
  xdrPutU32 4096
  xdrPutU32 65536
  xdrPutU64 0x7FFFFFFFFFFFFFFF
  xdrPutU32 1
  xdrPutU32 0
  xdrPutU32 (0x1 ||| 0x2 ||| 0x8 ||| 0x10)

def nfsproc3Pathconf : Rpc Unit := nfsproc3Info do
  xdrPutU32 1023
  xdrPutU32 255
  xdrPutU32 1
  xdrPutU32 0
  xdrPutU32 0
  xdrPutU32 1

def nfsproc3Commit (daemon : Daemon) : Rpc Unit := do
  let fh ← checkedArg xdrGetHandle
  let _ ← arg xdrGetU64
  let _ ← arg xdrGetU32
  checkArgs
  match xdrGetFh fh with
  | none => do
      putStatus .badhandle
      xdrPutWccData none none
  | some ino => do
      let result ← call (.commit ino)
      putStatus result.status
      xdrPutWccData result.pre result.post
      whenOk result.status (xdrPutFixed daemon.writeverf)

/-- `handle_nfs_proc`. -/
def handleNfsProc (daemon : Daemon) (proc : Nat) : Rpc Unit :=
  match proc with
  | 0 => pure ()
  | 1 => nfsproc3Getattr
  | 2 => nfsproc3Setattr
  | 3 => nfsproc3Lookup
  | 4 => nfsproc3Access
  | 5 => nfsproc3Readlink
  | 6 => nfsproc3Read
  | 7 => nfsproc3Write daemon
  | 8 => nfsproc3Create daemon
  | 9 => nfsproc3Mkdir daemon
  | 10 => nfsproc3Symlink daemon
  | 11 => nfsproc3Mknod
  | 12 => nfsproc3Remove
  | 13 => nfsproc3Rmdir
  | 14 => nfsproc3Rename
  | 15 => nfsproc3Link
  | 16 => nfsproc3Readdir
  | 17 => nfsproc3Readdirplus
  | 18 => nfsproc3Fsstat
  | 19 => nfsproc3Fsinfo
  | 20 => nfsproc3Pathconf
  | 21 => nfsproc3Commit daemon
  | _ => refuse .procUnavail

def mountproc3Mnt : Rpc Unit := do
  let path ← checkedArg (xdrGetStr 1025)
  if path ≠ [slashByte] ∧ path ≠ [] then xdrPutU32 2
  else do
    xdrPutU32 0
    let ino ← call .rootIno
    xdrPutHandle ino
    xdrPutU32 2
    xdrPutU32 1
    xdrPutU32 0

/-- The address of the only client, `127.0.0.1`. -/
def loopbackName : Name := [49, 50, 55, 46, 48, 46, 48, 46, 49]

/-- `handle_mount_proc`. -/
def handleMountProc (proc : Nat) : Rpc Unit :=
  match proc with
  | 0 => pure ()
  | 1 => mountproc3Mnt
  | 2 => xdrPutU32 0
  | 3 => do
      let _ ← checkedArg (xdrGetStr 1025)
      call .syncAll
  | 4 => call .syncAll
  | 5 => do
      xdrPutU32 1
      xdrPutStr [slashByte]
      xdrPutU32 1
      xdrPutStr loopbackName
      xdrPutU32 0
      xdrPutU32 0
  | _ => refuse .procUnavail

def mountProgram : Nat := 100005

def nfsProgram : Nat := 100003

/-- Words one after the other. -/
def wordsBytes (values : List Nat) : List UInt8 := values.flatMap wordBytes

/-- How `dispatch_rpc_call` goes on once it has read the header of a call. -/
inductive Opening
  | dropped
  | answered (reply : List UInt8)
  | accepted (prog proc : Nat) (wire : Wire)

/-- The part of `dispatch_rpc_call` before the handlers. -/
def openCall (msg : List UInt8) : Opening :=
  let xid := xdrGetU32 { rest := msg, err := false }
  let mtype := xdrGetU32 xid.2
  if mtype.2.err ∨ mtype.1 ≠ 0 then .dropped
  else
    let rpcvers := xdrGetU32 mtype.2
    if rpcvers.2.err then .dropped
    else if rpcvers.1 ≠ 2 then .answered (wordsBytes [xid.1, 1, 1, 0, 2, 2])
    else
      let prog := xdrGetU32 rpcvers.2
      let vers := xdrGetU32 prog.2
      let proc := xdrGetU32 vers.2
      let credFlavor := xdrGetU32 proc.2
      match xdrGetOpaque 400 credFlavor.2 with
      | (none, _) => .dropped
      | (some _, credLeft) =>
          let verfFlavor := xdrGetU32 credLeft
          match xdrGetOpaque 400 verfFlavor.2 with
          | (none, _) => .dropped
          | (some _, args) =>
              let header := wordsBytes [xid.1, 1, 0, 0, 0]
              let wantVers := 3
              if prog.1 ≠ mountProgram ∧ prog.1 ≠ nfsProgram then
                .answered (header ++ wordBytes 1)
              else if vers.1 ≠ wantVers then
                .answered (header ++ wordsBytes [2, wantVers, wantVers])
              else .accepted prog.1 proc.1 { reader := args, out := header }

def handleCall (daemon : Daemon) (prog proc : Nat) : Rpc Unit := do
  xdrPutU32 0
  if prog = mountProgram then handleMountProc proc else handleNfsProc daemon proc

def Refusal.acceptStat : Refusal → Nat
  | .garbageArgs => 4
  | .procUnavail => 3

/-- The part of `dispatch_rpc_call` after the handlers: a refused call is rolled back to
the position of its accept status. -/
def closeCall (statPos : Nat) (outcome : Except Refusal Unit × Wire) : List UInt8 :=
  match outcome.1 with
  | .ok _ => outcome.2.out
  | .error refusal => outcome.2.out.take statPos ++ wordBytes refusal.acceptStat

/-- `dispatch_rpc_call`; `none` is a call that gets no reply. -/
def dispatchRpcCall (daemon : Daemon) (msg : List UInt8) :
    CallProg FsOp FsOp.Result (Option (List UInt8)) :=
  match openCall msg with
  | .dropped => .done none
  | .answered reply => .done (some reply)
  | .accepted prog proc wire =>
      (handleCall daemon prog proc wire).bind fun outcome =>
        .done (some (closeCall wire.out.length outcome))

end Rufux.Mountd
