import Rufux.Library.Directory
import Rufux.Library.Splice
import Rufux.Mountd.Protocol

/-!
An ext2/3/4 volume as `mountd_nfs.c` sees it through libext2fs, and the libext2fs calls
the daemon makes. What the library is free to choose in a call (which free inode or
blocks it takes, where an entry lands in a directory, how many bytes one write moves,
whether the call fails) comes from an `ExtCalls` value, one for each request.
-/

namespace Rufux.Mountd

open Rufux.Library

/-- The libext2fs result codes that `ext_err_to_nfs3` tells apart. -/
inductive Errcode
  | fileNotFound | fileExists | dirNoSpace | dirNoSpaceForCsum | roFilsys | invalidArgument
  | tooSmall
  | errno (code : Errno)
  | other
  deriving DecidableEq, Repr

def extErrToNfs3 : Errcode → Nfsstat
  | .fileNotFound => .noent
  | .fileExists => .exist
  | .dirNoSpace => .nospc
  | .dirNoSpaceForCsum => .nospc
  | .roFilsys => .rofs
  | .invalidArgument => .inval
  | .tooSmall => .toosmall
  | .errno code => errnoToNfs3 code
  | .other => .io

theorem extErrToNfs3_ne_ok (code : Errcode) : extErrToNfs3 code ≠ .ok := by
  cases code <;> simp [extErrToNfs3, errnoToNfs3_ne_ok]

/-- The format bits of `i_mode`. -/
inductive Format
  | reg | dir | lnk | blk | chr | fifo | sock | other
  deriving DecidableEq, Repr

/-- How the inode's blocks are mapped: by block numbers, by an extent tree
(`EXT4_EXTENTS_FL`), or not at all (`EXT4_INLINE_DATA_FL`). -/
inductive Layout
  | blockMap | extents | inlineData
  deriving DecidableEq, Repr

/-- An inode. `iBlock` lists the words of `i_block`, each followed by the words below it
where it names an indirect or index block; only for regular files, directories and slow
symbolic links are these words block numbers. -/
structure ExtInode where
  format : Format
  perm : Nat
  uid : Nat
  gid : Nat
  size : Nat
  atime : Nat
  ctime : Nat
  mtime : Nat
  dtime : Nat
  linksCount : Nat
  blocks : Nat
  layout : Layout
  iBlock : List Nat
  fileAcl : Nat
  deriving DecidableEq, Repr

def ExtInode.zero : ExtInode where
  format := .other
  perm := 0
  uid := 0
  gid := 0
  size := 0
  atime := 0
  ctime := 0
  mtime := 0
  dtime := 0
  linksCount := 0
  blocks := 0
  layout := .blockMap
  iBlock := []
  fileAcl := 0

def ExtInode.isDir (inode : ExtInode) : Bool := inode.format = .dir

def ExtInode.isReg (inode : ExtInode) : Bool := inode.format = .reg

def ExtInode.isLnk (inode : ExtInode) : Bool := inode.format = .lnk

/-- `ext2fs_is_fast_symlink`: the target stands in the sixty bytes of `i_block`. -/
def ExtInode.isFastSymlink (inode : ExtInode) : Bool :=
  inode.isLnk && 0 < inode.size && inode.size < 60

/-- `entries` leaves out `.` and `..`; the latter is `dotdot`. `content` holds the bytes
of regular files and slow symbolic links; `durable` what each file held at the last
successful flush of the device. -/
structure ExtVolume where
  inodesCount : Nat
  firstIno : Nat
  blocksCount : Nat
  blockSize : Nat
  inodeMap : Nat → Bool
  inode : Nat → ExtInode
  entries : Nat → List (DirEntry Name)
  dotdot : Nat → Nat
  content : Nat → List UInt8
  blockMap : Nat → Bool
  durable : Nat → List UInt8

/-- `EXT2_ROOT_INO`. -/
def extRootIno : Nat := 2

/-- A volume just formatted: twenty blocks of metadata and the root's one block. -/
def ExtVolume.fresh : ExtVolume where
  inodesCount := 64
  firstIno := 11
  blocksCount := 1024
  blockSize := 1024
  inodeMap ino := decide (ino < 11)
  inode ino :=
    if ino = extRootIno then
      { ExtInode.zero with
        format := .dir, perm := 0o755, size := 1024, linksCount := 2, blocks := 2, iBlock := [20] }
    else .zero
  entries _ := []
  dotdot _ := extRootIno
  content _ := []
  blockMap block := decide (block ≤ 20)
  durable _ := []

/-- The part an inode or directory plays in the operation that calls the library. -/
inductive Role
  | dir | child | source | target | fromDir | toDir | post | fromPost | toPost | touchFrom
  | touchTo
  deriving DecidableEq, Repr

/-- The libext2fs calls of one operation that can fail; `inner` are the calls of an
operation that this one invokes, `turn` those of a GETATTR that the handler adds. -/
inductive ExtSite
  | readValid (role : Role)
  | lookup (role : Role)
  | link (role : Role)
  | expandDir (role : Role)
  | relink (role : Role)
  | unlink (role : Role)
  | iterate (role : Role)
  | readInode (role : Role)
  | writeInode (role : Role)
  | newInode
  | writeNewInode
  | mkdir
  | mkdirAgain
  | symlink
  | symlinkAgain
  | punch
  | fileOpen
  | setSize
  | fileClose
  | llseek
  | fileRead (turn : Nat)
  | fileWrite (turn : Nat)
  | fileFlush
  | writeBitmaps
  | flush
  | ioFlush
  | inner (site : ExtSite)
  | turn (index : Nat) (site : ExtSite)
  deriving DecidableEq, Repr

/-- What libext2fs does during one request where it has a choice, and the clock. -/
structure ExtCalls where
  fault : ExtSite → Option Errcode
  now : Nat
  newIno : Nat
  newBlocks : ExtSite → List Nat
  beyond : Nat → Bool
  arrange : List (DirEntry Name) → List (DirEntry Name)
  chunk : Nat → Nat

/-- The same choices as seen by an operation that this one invokes. -/
def ExtCalls.inner (calls : ExtCalls) : ExtCalls :=
  { calls with fault := fun site => calls.fault (.inner site)
               newBlocks := fun site => calls.newBlocks (.inner site) }

def ExtCalls.turn (calls : ExtCalls) (index : Nat) : ExtCalls :=
  { calls with fault := fun site => calls.fault (.turn index site) }

/-- No call fails. -/
def ExtCalls.NoFault (calls : ExtCalls) : Prop := ∀ site, calls.fault site = none

/-- A library that never fails, moves all it is given and allocates no block. -/
def ExtCalls.quiet (newIno : Nat) : ExtCalls where
  fault _ := none
  now := 0
  newIno := newIno
  newBlocks _ := []
  beyond _ := true
  arrange := id
  chunk _ := 2 ^ 20

namespace ExtVolume

def setInode (volume : ExtVolume) (ino : Nat) (inode : ExtInode) : ExtVolume :=
  { volume with inode := Function.update volume.inode ino inode }

def setEntries (volume : ExtVolume) (dir : Nat) (list : List (DirEntry Name)) : ExtVolume :=
  { volume with entries := Function.update volume.entries dir list }

def setDotdot (volume : ExtVolume) (dir parent : Nat) : ExtVolume :=
  { volume with dotdot := Function.update volume.dotdot dir parent }

def setContent (volume : ExtVolume) (ino : Nat) (bytes : List UInt8) : ExtVolume :=
  { volume with content := Function.update volume.content ino bytes }

/-- `ext2fs_inode_alloc_stats2`. -/
def markInode (volume : ExtVolume) (ino : Nat) (used : Bool) : ExtVolume :=
  { volume with inodeMap := Function.update volume.inodeMap ino used }

/-- `ext2fs_block_alloc_stats2` on a list of blocks; numbers past the end of the device
are ignored. -/
def markBlocks (volume : ExtVolume) (blocks : List Nat) (used : Bool) : ExtVolume :=
  { volume with
    blockMap := fun block =>
      if block ∈ blocks ∧ block < volume.blocksCount then used else volume.blockMap block }

/-- The blocks that an allocation takes: the proposed ones, if they are free. -/
def freshBlocks (volume : ExtVolume) (proposed : List Nat) : List Nat :=
  if proposed.Nodup ∧ ∀ block ∈ proposed,
      0 < block ∧ block < volume.blocksCount ∧ volume.blockMap block = false then proposed
  else []

/-- Fresh blocks become part of an inode's map. -/
def claimBlocks (volume : ExtVolume) (ino : Nat) (proposed : List Nat) : ExtVolume :=
  let fresh := volume.freshBlocks proposed
  let inode := volume.inode ino
  (volume.setInode ino { inode with
    iBlock := inode.iBlock ++ fresh
    blocks := inode.blocks + fresh.length * (volume.blockSize / 512) }).markBlocks fresh true

/-- Fresh blocks at the end of a directory. -/
def growDir (volume : ExtVolume) (dir : Nat) (proposed : List Nat) : ExtVolume :=
  let fresh := volume.freshBlocks proposed
  let claimed := volume.claimBlocks dir proposed
  let inode := claimed.inode dir
  claimed.setInode dir { inode with size := inode.size + fresh.length * volume.blockSize }

end ExtVolume

/-- `ext2fs_read_inode`. -/
def ext2fsReadInode (fault : Option Errcode) (volume : ExtVolume) (ino : Nat) :
    Except Errcode ExtInode :=
  match fault with
  | some code => .error code
  | none => .ok (volume.inode ino)

/-- `ext2fs_write_inode`; its result code is the fault. -/
def ext2fsWriteInode (fault : Option Errcode) (volume : ExtVolume) (ino : Nat)
    (inode : ExtInode) : ExtVolume :=
  match fault with
  | some _ => volume
  | none => volume.setInode ino inode

/-- `ext2fs_lookup`. -/
def ext2fsLookup (fault : Option Errcode) (volume : ExtVolume) (dir : Nat) (name : Name) :
    Except Errcode Nat :=
  match fault with
  | some code => .error code
  | none =>
      if name = dotName then .ok dir
      else if name = dotdotName then .ok (volume.dotdot dir)
      else match findEntry (volume.entries dir) name with
        | some ino => .ok ino
        | none => .error .fileNotFound

/-- What a successful `ext2fs_link` does. It does not look for an entry of that name. -/
def ExtVolume.addEntry (volume : ExtVolume) (calls : ExtCalls) (dir : Nat) (name : Name)
    (ino : Nat) : ExtVolume :=
  volume.setEntries dir (insertEntry calls.arrange (volume.entries dir) name ino)

/-- `ext2fs_link`, where the directory's index may take new blocks. -/
def ext2fsLink (calls : ExtCalls) (site : ExtSite) (volume : ExtVolume) (dir : Nat)
    (name : Name) (ino : Nat) : Option Errcode × ExtVolume :=
  match calls.fault site with
  | some code => (some code, volume)
  | none => (none, (volume.growDir dir (calls.newBlocks site)).addEntry calls dir name ino)

/-- `ext2fs_unlink` of the entry with this name and inode number. -/
def ext2fsUnlink (fault : Option Errcode) (volume : ExtVolume) (dir : Nat) (name : Name)
    (ino : Nat) : Option Errcode × ExtVolume :=
  match fault with
  | some code => (some code, volume)
  | none =>
      if ⟨name, ino⟩ ∈ volume.entries dir then
        (none, volume.setEntries dir ((volume.entries dir).erase ⟨name, ino⟩))
      else (some .dirNoSpace, volume)

/-- `ext2fs_new_inode`: a free inode outside the reserved range. -/
def ext2fsNewInode (fault : Option Errcode) (calls : ExtCalls) (volume : ExtVolume) :
    Except Errcode Nat :=
  match fault with
  | some code => .error code
  | none =>
      if extRootIno < calls.newIno ∧ volume.firstIno ≤ calls.newIno ∧
          calls.newIno ≤ volume.inodesCount ∧
          volume.inodeMap calls.newIno = false then .ok calls.newIno
      else .error .other

/-- `i_links_count` is sixteen bits wide. -/
def incLinks (inode : ExtInode) : ExtInode :=
  { inode with linksCount := (inode.linksCount + 1) % 65536 }

def decLinks (inode : ExtInode) : ExtInode :=
  { inode with linksCount := inode.linksCount - 1 }

/-- The inode that `ext2fs_mkdir2` writes for a new directory. -/
def newDirInode (calls : ExtCalls) (volume : ExtVolume) : ExtInode :=
  { ExtInode.zero with
    format := .dir, perm := 0o755, size := volume.blockSize, linksCount := 2
    atime := calls.now, ctime := calls.now, mtime := calls.now }

/-- `ext2fs_mkdir2` with `EXT2FS_LINK_EXPAND`: a new directory with two links, one more
link for its parent. -/
def ext2fsMkdir2 (calls : ExtCalls) (site : ExtSite) (volume : ExtVolume) (parent : Nat)
    (name : Name) : Except Errcode (Nat × ExtVolume) :=
  match ext2fsNewInode (calls.fault site) calls volume with
  | .error code => .error code
  | .ok ino =>
      match ext2fsLookup none volume parent name with
      | .ok _ => .error .other
      | .error _ =>
          let made := (((volume.setInode ino (newDirInode calls volume)).claimBlocks ino
            ((calls.newBlocks site).take 1)).setDotdot ino parent).markInode ino true
          let linked := ((made.setEntries ino []).growDir parent
            ((calls.newBlocks site).drop 1)).addEntry calls parent name ino
          .ok (ino, linked.setInode parent (incLinks (linked.inode parent)))

/-- The words of `i_block` that hold a short text. -/
def packWords : List UInt8 → List Nat
  | first :: second :: third :: fourth :: rest =>
      (first.toNat + second.toNat * 256 + third.toNat * 65536 + fourth.toNat * 16777216) ::
        packWords rest
  | [] => []
  | [first] => [first.toNat]
  | [first, second] => [first.toNat + second.toNat * 256]
  | [first, second, third] => [first.toNat + second.toNat * 256 + third.toNat * 65536]

def unpackWords (words : List Nat) : List UInt8 :=
  words.flatMap fun word =>
    [UInt8.ofNat word, UInt8.ofNat (word / 256), UInt8.ofNat (word / 65536),
      UInt8.ofNat (word / 16777216)]

def newSymlinkInode (calls : ExtCalls) (target : Name) : ExtInode :=
  { ExtInode.zero with
    format := .lnk, perm := 0o777, size := target.length, linksCount := 1
    iBlock := if target.length < 60 then packWords target else []
    atime := calls.now, ctime := calls.now, mtime := calls.now }

/-- `ext2fs_symlink`: short targets stay in the inode, long ones take one block. -/
def ext2fsSymlink (calls : ExtCalls) (site : ExtSite) (volume : ExtVolume) (parent : Nat)
    (name target : Name) : Except Errcode ExtVolume :=
  if volume.blockSize ≤ target.length then .error .invalidArgument
  else match ext2fsNewInode (calls.fault site) calls volume with
  | .error code => .error code
  | .ok ino =>
      match ext2fsLookup none volume parent name with
      | .ok _ => .error .fileExists
      | .error _ =>
          let written := volume.setInode ino (newSymlinkInode calls target)
          let stored :=
            if target.length < 60 then written
            else (written.claimBlocks ino ((calls.newBlocks site).take 1)).setContent ino target
          .ok (((stored.markInode ino true).growDir parent
            ((calls.newBlocks site).drop 1)).addEntry calls parent name ino)

/-- The words that `ext2fs_punch` of a whole inode takes for its blocks. -/
def punchedBlocks (volume : ExtVolume) (inode : ExtInode) : List Nat :=
  if inode.layout = .inlineData then []
  else inode.iBlock.filter fun block => decide (block ≠ 0 ∧ block < volume.blocksCount)

/-- The inode that `ext2fs_punch` of everything leaves in memory. -/
def punchedInode (volume : ExtVolume) (inode : ExtInode) : ExtInode :=
  { inode with
    iBlock := []
    blocks := inode.blocks - (punchedBlocks volume inode).length * (volume.blockSize / 512) }

/-- `ext2fs_punch` from block 0 to the end, with the caller's copy of the inode. -/
def ext2fsPunch (fault : Option Errcode) (volume : ExtVolume) (ino : Nat) (inode : ExtInode) :
    ExtInode × ExtVolume :=
  match fault with
  | some _ => (inode, volume)
  | none =>
      (punchedInode volume inode,
        ((volume.setInode ino (punchedInode volume inode)).setContent ino []).markBlocks
          (punchedBlocks volume inode) false)

/-- `ext2fs_file_set_size2` on a regular file: blocks past a smaller size are freed. -/
def ext2fsFileSetSize (calls : ExtCalls) (volume : ExtVolume) (ino size : Nat) : ExtVolume :=
  let inode := volume.inode ino
  let freed :=
    if size < inode.size ∧ inode.layout ≠ .inlineData then
      inode.iBlock.filter fun block =>
        decide (calls.beyond block = true ∧ block ≠ 0 ∧ block < volume.blocksCount)
    else []
  ((volume.setInode ino { inode with
      size := size
      iBlock := inode.iBlock.filter fun block => decide (block ∉ freed)
      blocks := inode.blocks - freed.length * (volume.blockSize / 512) }).setContent ino
    (resize 0 (volume.content ino) size)).markBlocks freed false

/-- One `ext2fs_file_write`, which stores the first `chunk` bytes it is given. -/
def ext2fsFileWrite (calls : ExtCalls) (turn : Nat) (volume : ExtVolume) (ino pos : Nat)
    (bytes : List UInt8) : ExtVolume :=
  let grown := volume.claimBlocks ino (calls.newBlocks (.fileWrite turn))
  let inode := grown.inode ino
  let size := if bytes = [] then inode.size else max inode.size (pos + bytes.length)
  (grown.setInode ino { inode with size := size }).setContent ino
    (splice 0 (volume.content ino) pos bytes)

/-- `ext2fs_flush`, which ends in a successful flush of the device or fails. -/
def ext2fsFlush (fault : Option Errcode) (volume : ExtVolume) : ExtVolume :=
  match fault with
  | some _ => volume
  | none => { volume with durable := volume.content }

end Rufux.Mountd
