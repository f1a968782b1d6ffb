import Rufux.Library.Directory
import Rufux.Library.Splice
import Rufux.Mountd.Protocol

/-!
An NTFS volume as `mountd_nfs.c` sees it through libntfs-3g, and the documented effect of
the calls the daemon makes. libntfs-3g is not part of the repository: its name
conversions are the parameter `NtfsLib`, and what it chooses within a request (which
free record it takes, where an entry lands in an index, how many bytes one call moves,
which call fails and with which `errno`) comes from an `NtfsCalls` value.
-/

namespace Rufux.Mountd

open Rufux.Library

/-- `FILE_root` and `FILE_first_user`. -/
def fileRoot : Nat := 5

def fileFirstUser : Nat := 16

/-- A file name in UTF-16 code units. -/
abbrev UcsName := List Nat

/-- `ntfs_mbstoucs` and `ntfs_ucstombs`. -/
structure NtfsLib where
  mbstoucs : Name → Option UcsName
  ucstombs : UcsName → Option Name

/-- An NTFS time, whole seconds since 1970 and the rest in steps of a hundred nanoseconds. -/
structure Timestamp where
  sec : Int
  nsec : Nat
  deriving DecidableEq, Repr

def timespec2ntfs (sec nsec : Nat) : Timestamp where
  sec := sec + nsec / 10 ^ 9
  nsec := nsec % 10 ^ 9 / 100 * 100

/-- An MFT record in use. `fileNames` are its FILE_NAME attributes (parent and name);
`symlink` is the target where `ntfs_is_symlink_inode` holds; `data` is the unnamed $DATA. -/
structure NtfsRecord where
  isDir : Bool
  fileNames : List (Nat × UcsName)
  symlink : Option Name
  data : Option (List UInt8)
  allocated : Nat
  atime : Timestamp
  mtime : Timestamp
  ctime : Timestamp
  deriving DecidableEq, Repr

structure NtfsVolume where
  record : Nat → Option NtfsRecord
  sequence : Nat → Nat
  mftRecords : Nat
  clusterSize : Nat
  nrClusters : Nat
  entries : Nat → List (DirEntry UcsName)
  durable : Nat → List UInt8
  hasSync : Bool

/-- `MREF` and `MSEQNO`: a reference is a record number below a sequence number. -/
def mref (reference : Nat) : Nat := reference % 2 ^ 48

def mseqno (reference : Nat) : Nat := reference / 2 ^ 48

inductive NtfsRole
  | dir | child | parent | fromDir | toDir | fromPost | toPost | post | source | target
  | linkDir | unlinkDir
  deriving DecidableEq, Repr

inductive NtfsSite
  | openInode (role : NtfsRole)
  | parentInode (role : NtfsRole)
  | lookup (role : NtfsRole)
  | openAttr
  | fillAttr (role : NtfsRole)
  | readSymlink
  | truncate
  | pread (turn : Nat)
  | pwrite (turn : Nat)
  | create
  | link
  | delete
  | closeInDir
  | closeDir
  | readdir
  | sync
  | within (role : NtfsRole) (site : NtfsSite)
  | turn (index : Nat) (site : NtfsSite)
  deriving DecidableEq, Repr

/-- What libntfs-3g does during one request where it has a choice, and the clock. -/
structure NtfsCalls where
  fault : NtfsSite → Option Errno
  now : Timestamp
  newRecord : Nat
  allocated : Nat
  freeClusters : Nat
  freeRecords : Nat
  arrange : List (DirEntry UcsName) → List (DirEntry UcsName)
  chunk : Nat → Nat

/-- The same choices as seen by an operation that this one invokes. -/
def NtfsCalls.within (calls : NtfsCalls) (role : NtfsRole) : NtfsCalls :=
  { calls with fault := fun site => calls.fault (.within role site) }

def NtfsCalls.turn (calls : NtfsCalls) (index : Nat) : NtfsCalls :=
  { calls with fault := fun site => calls.fault (.turn index site) }

def NtfsCalls.NoFault (calls : NtfsCalls) : Prop := ∀ site, calls.fault site = none

/-- A library that never fails and moves all it is given. -/
def NtfsCalls.quiet (newRecord : Nat) : NtfsCalls where
  fault _ := none
  now := { sec := 0, nsec := 0 }
  newRecord := newRecord
  allocated := 0
  freeClusters := 0
  freeRecords := 0
  arrange := id
  chunk _ := 2 ^ 20

/-- The conversion of names in ASCII. -/
def NtfsLib.ascii : NtfsLib where
  mbstoucs name := some (name.map UInt8.toNat)
  ucstombs ucs := some (ucs.map UInt8.ofNat)

def NtfsRecord.blank (isDir : Bool) (fileNames : List (Nat × UcsName)) : NtfsRecord where
  isDir := isDir
  fileNames := fileNames
  symlink := none
  data := if isDir then none else some []
  allocated := 0
  atime := { sec := 0, nsec := 0 }
  mtime := { sec := 0, nsec := 0 }
  ctime := { sec := 0, nsec := 0 }

/-- `$MFT`. -/
def mftName : UcsName := [36, 77, 70, 84]

/-- A volume just formatted, of whose metadata files only `$MFT` is shown. -/
def NtfsVolume.fresh : NtfsVolume where
  record ino :=
    if ino = fileRoot then some (.blank true [])
    else if ino = 0 then some (.blank false [(fileRoot, mftName)])
    else none
  sequence _ := 1
  mftRecords := 64
  clusterSize := 4096
  nrClusters := 4096
  entries dir := if dir = fileRoot then [⟨mftName, 0⟩] else []
  durable _ := []
  hasSync := true

namespace NtfsVolume

def setRecord (volume : NtfsVolume) (ino : Nat) (record : Option NtfsRecord) : NtfsVolume :=
  { volume with record := Function.update volume.record ino record }

def setEntries (volume : NtfsVolume) (dir : Nat) (list : List (DirEntry UcsName)) : NtfsVolume :=
  { volume with entries := Function.update volume.entries dir list }

def bumpSequence (volume : NtfsVolume) (ino : Nat) : NtfsVolume :=
  { volume with
    sequence := Function.update volume.sequence ino
      (if volume.sequence ino = 65535 then 1 else volume.sequence ino + 1) }

end NtfsVolume

/-- `ntfs_inode_open` of a reference: sequence number zero matches any record in use. -/
def ntfsInodeOpen (fault : Option Errno) (volume : NtfsVolume) (reference : Nat) :
    Except Errno NtfsRecord :=
  match fault with
  | some code => .error code
  | none =>
      match volume.record (mref reference) with
      | none => .error (if mref reference < volume.mftRecords then .enoent else .other 29)
      | some record =>
          if mseqno reference ≠ 0 ∧ mseqno reference ≠ volume.sequence (mref reference) then
            .error .eio
          else .ok record

/-- `ntfs_inode_lookup_by_name`, with `MREF` of its result. -/
def ntfsLookupByName (fault : Option Errno) (volume : NtfsVolume) (dir : Nat) (name : UcsName) :
    Except Errno Nat :=
  match fault with
  | some code => .error code
  | none =>
      match findEntry (volume.entries dir) name with
      | some ino => .ok ino
      | none => .error .enoent

/-- A free MFT record outside the reserved range. -/
def ntfsNewRecord (calls : NtfsCalls) (volume : NtfsVolume) : Except Errno Nat :=
  if fileFirstUser ≤ calls.newRecord ∧ calls.newRecord < 2 ^ 48 ∧
      volume.record calls.newRecord = none then .ok calls.newRecord
  else .error .enospc

inductive NtfsKind
  | file | dir | symlink (target : Name)
  deriving DecidableEq, Repr

def freshRecord (calls : NtfsCalls) (kind : NtfsKind) (dir : Nat) (name : UcsName) :
    NtfsRecord where
  isDir := decide (kind = .dir)
  fileNames := [(dir, name)]
  symlink := match kind with
    | .symlink target => some target
    | _ => none
  data := if kind = .dir then none else some []
  allocated := calls.allocated
  atime := calls.now
  mtime := calls.now
  ctime := calls.now

/-- `ntfs_create` and `ntfs_create_symlink`: a new record with one name. -/
def ntfsCreate (calls : NtfsCalls) (volume : NtfsVolume) (dir : Nat) (name : UcsName)
    (kind : NtfsKind) : Except Errno (Nat × NtfsVolume) :=
  match calls.fault .create with
  | some code => .error code
  | none =>
      if findEntry (volume.entries dir) name ≠ none then .error .eexist
      else match ntfsNewRecord calls volume with
        | .error code => .error code
        | .ok ino =>
            let made := (volume.setRecord ino (some (freshRecord calls kind dir name))).setEntries
              ino []
            .ok (ino, { made.setEntries dir
                (insertEntry calls.arrange (made.entries dir) name ino) with
              mftRecords := max volume.mftRecords (ino + 1) })

/-- `ntfs_link`: one more name for a record, which must not be the directory itself. -/
def ntfsLink (fault : Option Errno) (calls : NtfsCalls) (volume : NtfsVolume) (ino dir : Nat)
    (name : UcsName) : Except Errno NtfsVolume :=
  match fault with
  | some code => .error code
  | none =>
      if ino = dir then .error .einval
      else if findEntry (volume.entries dir) name ≠ none then .error .eexist
      else match volume.record ino with
        | none => .error .enoent
        | some record =>
            .ok ((volume.setRecord ino (some { record with
                fileNames := record.fileNames ++ [(dir, name)] })).setEntries dir
              (insertEntry calls.arrange (volume.entries dir) name ino))

/-- `ntfs_delete`: one name less; the record is freed with its last name, and a directory
must be empty by then. -/
def ntfsDelete (fault : Option Errno) (calls : NtfsCalls) (volume : NtfsVolume) (ino dir : Nat)
    (name : UcsName) : Except Errno NtfsVolume :=
  match fault with
  | some code => .error code
  | none =>
      if (⟨name, ino⟩ : DirEntry UcsName) ∉ volume.entries dir then .error .enoent
      else match volume.record ino with
        | none => .error .enoent
        | some record =>
            let left := record.fileNames.erase (dir, name)
            if record.isDir ∧ left = [] ∧ volume.entries ino ≠ [] then .error .enotempty
            else
              let removed := volume.setEntries dir
                (rearrange calls.arrange ((volume.entries dir).erase ⟨name, ino⟩))
              .ok (if left = [] then (removed.setRecord ino none).bumpSequence ino
                else removed.setRecord ino (some { record with fileNames := left }))

/-- The signed reading of a 64-bit value. -/
def toS64 (value : Nat) : Int :=
  if value < 2 ^ 63 then (value : Int) else (value : Int) - 2 ^ 64

/-- `ntfs_attr_truncate` of the unnamed $DATA. -/
def ntfsAttrTruncate (fault : Option Errno) (calls : NtfsCalls) (bytes : List UInt8)
    (record : NtfsRecord) (size : Int) : Except Errno NtfsRecord :=
  match fault with
  | some code => .error code
  | none =>
      if size < 0 then .error .einval
      else .ok { record with
        data := some (resize 0 bytes size.toNat)
        allocated := calls.allocated }

/-- One `ntfs_attr_pwrite` of the bytes it stores. -/
def ntfsAttrPwrite (fault : Option Errno) (calls : NtfsCalls) (bytes : List UInt8)
    (record : NtfsRecord) (pos : Int) (moved : List UInt8) : Except Errno NtfsRecord :=
  match fault with
  | some code => .error code
  | none =>
      if pos < 0 then .error .einval
      else .ok { record with
        data := some (splice 0 bytes pos.toNat moved)
        allocated := calls.allocated }

/-- `d_ops->sync`. -/
def ntfsSync (fault : Option Errno) (volume : NtfsVolume) : NtfsVolume :=
  match fault with
  | some _ => volume
  | none =>
      { volume with
        durable := fun ino => ((volume.record ino).bind NtfsRecord.data).getD [] }

end Rufux.Mountd
