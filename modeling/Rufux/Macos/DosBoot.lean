import Rufux.Library.Positioned
import Rufux.Library.Splice

/-!
Patching boot records: a blob written at its place, either at once or sector by sector with the
old bytes around it, and the three records made of such blobs.
-/

namespace Rufux.Macos

open Library Library.Session

/-- The boot records of ms-sys, as byte arrays of their sizes. -/
structure BootBlobs where
  brFat32_0x0 : Vector UInt8 11
  brFat32_0x52 : Vector UInt8 918
  brFat32_0x3f0 : Vector UInt8 528
  brNtfs_0x0 : Vector UInt8 11
  brNtfs_0x54 : Vector UInt8 4052
  mbrDos_0x0 : Vector UInt8 440

/-- What `open_buffered_target` meets: the node behind the target, whether `stat` finds a device,
its sector size, and the two attempts to open it, with `EBUSY` told apart. -/
structure BufferedOpen where
  target : String
  bootDisk : Bool
  bnode : String
  stat : Except String Bool
  sectorSize : Nat
  opened : Except (Bool × String) Unit
  unmounted : Except String Unit
  reopened : Except String Unit

/-- `open_buffered_target`: whether the target is a device, and its sector size. -/
def openBufferedTarget (run : BufferedOpen) : Except String (Bool × Nat) :=
  if run.target = "" then .error "empty target path"
  else if run.bootDisk then .error s!"refusing boot/system disk '{run.target}'"
  else
    match run.stat with
    | .error why => .error s!"cannot stat '{run.bnode}': {why}"
    | .ok isDev =>
        let secSz := if isDev then run.sectorSize else 512
        let secSz := if secSz < 512 ∨ 4096 < secSz then 512 else secSz
        match run.opened with
        | .ok () => .ok (isDev, secSz)
        | .error (busy, why) =>
            if busy ∧ isDev then
              match run.unmounted with
              | .error why => .error why
              | .ok () =>
                  match run.reopened with
                  | .ok () => .ok (isDev, secSz)
                  | .error why => .error s!"cannot open '{run.bnode}': {why}"
            else .error s!"cannot open '{run.bnode}': {why}"

/-- The part of a blob that lies in one sector. -/
structure Piece where
  secBase : Nat
  inSec : Nat
  take : Nat

/-- The piece of `len` bytes at `off` that follows the first `done` of them. -/
def pieceAt (secSz off len done : Nat) : Piece :=
  let cur := (off + done) % 2 ^ 64
  let secBase := cur / secSz * secSz
  let inSec := cur - secBase
  { secBase := secBase, inSec := inSec, take := min (secSz - inSec) (len - done) }

/-- The loop of `blob_write` over the sectors of a device. -/
def blobSectors (stale : String) (secSz off : Nat) (blob : List UInt8) (what : String) :
    Nat → Nat → Session Unit
  | 0, done => if blob.length ≤ done then give () else unended
  | fuel + 1, done =>
      if blob.length ≤ done then give ()
      else
        let piece := pieceAt secSz off blob.length done
        ((preadExact stale secSz piece.secBase []).orElse
            fun why => s!"read failed ({what}): {why}").andThen fun sec =>
          ((pwriteAll stale piece.secBase
              (splice 0 sec piece.inSec ((blob.drop done).take piece.take))).orElse
            fun why => s!"write failed ({what}): {why}").andThen fun _ =>
              blobSectors stale secSz off blob what fuel (done + piece.take)

/-- A blob, the byte at which it belongs and its name in messages. -/
structure Patch where
  off : Nat
  blob : List UInt8
  what : String

/-- `blob_write`. -/
def blobWrite (stale : String) (isDev : Bool) (secSz : Nat) (patch : Patch) : Session Unit :=
  if patch.blob.length = 0 then give ()
  else if isDev then
    blobSectors stale secSz patch.off patch.blob patch.what patch.blob.length 0
  else
    (pwriteAll stale patch.off patch.blob).orElse
      fun why => s!"write failed ({patch.what}): {why}"

/-- One `blob_write` after the other until one fails. -/
def blobWrites (stale : String) (isDev : Bool) (secSz : Nat) : List Patch → Session Unit
  | [] => give ()
  | patch :: rest =>
      (blobWrite stale isDev secSz patch).andThen fun _ => blobWrites stale isDev secSz rest

/-- Opening, the blobs, and `fsync`, which fails with a message of its own. -/
def bootRecord (stale : String) (run : BufferedOpen) (patches : List Patch)
    (synced : Except String Unit) (record : String) : Session Unit :=
  match openBufferedTarget run with
  | .error why => refuse why
  | .ok (isDev, secSz) =>
      (blobWrites stale isDev secSz patches).andThen fun _ =>
        match synced with
        | .ok () => give ()
        | .error why => refuse s!"fsync failed writing {record}: {why}"

/-- `toupper` in the C locale. -/
def toupper (byte : UInt8) : UInt8 := if 97 ≤ byte ∧ byte ≤ 122 then byte - 32 else byte

/-- The eleven bytes of a volume label, in capitals and filled up with blanks. -/
def labelField (label11 : List UInt8) : List UInt8 :=
  let label := ((label11.takeWhile (· ≠ 0)).take 11).map toupper
  label ++ List.replicate (11 - label.length) 32

/-- A part of a boot record, at its place behind the record's first byte. -/
def Patch.shifted (baseOff : Nat) (part : Patch) : Patch :=
  ⟨(baseOff + part.off) % 2 ^ 64, part.blob, part.what⟩

def fat32Parts (blobs : BootBlobs) (label11 : List UInt8) : List Patch :=
  [⟨0x0, blobs.brFat32_0x0.toList, "pbr head"⟩, ⟨0x47, labelField label11, "pbr label"⟩,
    ⟨0x52, blobs.brFat32_0x52.toList, "pbr code"⟩, ⟨0x3f0, blobs.brFat32_0x3f0.toList, "pbr tail"⟩]

/-- `rufux_dos_pbr_fd32`; a NULL label is an empty one. -/
def rufuxDosPbrFd32 (stale : String) (blobs : BootBlobs) (run : BufferedOpen) (baseOff : Nat)
    (label11 : List UInt8) (synced : Except String Unit) : Session Unit :=
  bootRecord stale run ((fat32Parts blobs label11).map (Patch.shifted baseOff)) synced
    "FreeDOS PBR"

def mbrParts (blobs : BootBlobs) : List Patch :=
  [⟨0, blobs.mbrDos_0x0.toList.take (min 440 blobs.mbrDos_0x0.size), "dos mbr"⟩]

/-- `rufux_dos_mbr`. -/
def rufuxDosMbr (stale : String) (blobs : BootBlobs) (run : BufferedOpen)
    (synced : Except String Unit) : Session Unit :=
  bootRecord stale run ((mbrParts blobs).map (Patch.shifted 0)) synced "DOS MBR"

def ntfsParts (blobs : BootBlobs) : List Patch :=
  [⟨0x0, blobs.brNtfs_0x0.toList, "ntfs pbr head"⟩,
    ⟨0x54, blobs.brNtfs_0x54.toList, "ntfs pbr code"⟩]

/-- `rufux_ntfs_pbr`. -/
def rufuxNtfsPbr (stale : String) (blobs : BootBlobs) (run : BufferedOpen) (baseOff : Nat)
    (synced : Except String Unit) : Session Unit :=
  bootRecord stale run ((ntfsParts blobs).map (Patch.shifted baseOff)) synced "NTFS PBR"

end Rufux.Macos
