import Rufux.Library.ByteMap
import Rufux.Macos.Partition

/-!
The half of `rufux_partition` that writes: the wiped ranges, the protective or DOS MBR,
and the two GPT headers with their entry arrays.
-/

namespace Rufux.Macos

open Library Library.WordProg ByteMap

def crcShift (crc : BitVec 32) : BitVec 32 :=
  (crc >>> 1) ^^^ (if crc &&& 1 ≠ 0 then 0xEDB88320 else 0)

/-- `crc32_ieee`. -/
def crc32Ieee (bytes : List UInt8) : Nat :=
  let shifted := bytes.foldl
    (fun crc byte => Nat.repeat crcShift 8 (crc ^^^ byte.toBitVec.setWidth 32)) 0xFFFFFFFF
  (shifted ^^^ 0xFFFFFFFF).toNat

theorem crc32Ieee_lt (bytes : List UInt8) : crc32Ieee bytes < 256 ^ 4 :=
  BitVec.isLt _

/-- A file or device with so many bytes. -/
structure Device where
  size : Nat
  bytes : ByteMap

/-- `pwrite` takes its offset as a signed 64-bit number. -/
def Device.Reaches (device : Device) (off len : Nat) : Prop :=
  off + len ≤ device.size ∧ off < 2 ^ 63

instance (device : Device) (off len : Nat) : Decidable (device.Reaches off len) :=
  inferInstanceAs (Decidable (_ ∧ _))

/-- `pread_all`, into a fresh buffer. -/
def Device.pread (device : Device) (off len : Nat) : Option ByteMap :=
  if device.Reaches off len then some fun index => device.bytes (off + index) else none

/-- A write that fails: how many bytes went through before, and `strerror`. -/
structure Refusal where
  through : Nat
  reason : String

/-- `rufux_pwrite_all`. -/
def Device.pwriteAll (device : Device) (refusal : Option Refusal) (write : Write) :
    Except String Unit × Device :=
  let reached (len : Nat) : Device :=
    { device with bytes := device.bytes.apply { write with len := min len write.len } }
  match refusal with
  | some refusal => (.error refusal.reason, reached (min refusal.through (device.size - write.off)))
  | none =>
      if device.Reaches write.off write.len then (.ok (), reached write.len)
      else (.error "Invalid argument", reached (device.size - write.off))

/-- One `rufux_pwrite_all` and the message, given `strerror`, if it fails. -/
structure TableWrite where
  write : Write
  failed : String → String

/-- The writes one after the other until one fails; `refuses` says which calls fail. -/
def performAll (refuses : Nat → Option Refusal) (device : Device) :
    Nat → List TableWrite → Except String Unit × Device
  | _, [] => (.ok (), device)
  | index, step :: rest =>
      match device.pwriteAll (refuses index) step.write with
      | (.error reason, left) => (.error (step.failed reason), left)
      | (.ok (), written) => performAll refuses written (index + 1) rest

def zcap : Nat := 1048576

/-- `zero_range`: zeros in pieces of a mebibyte. -/
def zeroRange (off len : Nat) : List Write :=
  if len = 0 then []
  else { off, len := min len zcap, source := zeros } ::
    zeroRange (off + min len zcap) (len - min len zcap)
termination_by len
decreasing_by
  simp only [zcap]
  omega

/-- `encode_chs`. -/
def encodeChs (lba : Nat) : List UInt8 :=
  if 1024 * 255 * 63 - 1 < lba then [0xFE, 0xFF, 0xFF]
  else
    let sec := lba % 63 + 1
    let head := lba / 63 % 255
    let cyl := lba / 63 / 255
    [UInt8.ofNat head, UInt8.ofNat (sec % 64 ||| (cyl / 4 &&& 0xC0)), UInt8.ofNat cyl]

/-- `encode_utf16le_name`, before it is padded with zeros. -/
def encodeUtf16leName (ascii : String) : List UInt8 :=
  (ascii.toList.take 35).flatMap fun letter => [UInt8.ofNat letter.toNat, 0]

/-- Sixteen bytes of `arc4random_buf`. -/
abbrev RawGuid := Fin 16 → UInt8

/-- `gen_random_guid_v4`. -/
def genRandomGuidV4 (raw : RawGuid) : List UInt8 :=
  ((List.ofFn raw).set 7 (raw 7 &&& 0x0F ||| 0x40)).set 8 (raw 8 &&& 0x3F ||| 0x80)

/-- What the random number generator gives to one run. -/
structure Chance where
  diskSig : BitVec 32
  entryGuid : Nat → RawGuid
  diskGuid : RawGuid

/-- The first 440 bytes of an MBR, from a file or built in. -/
structure BootCode where
  bytes : List UInt8
  size : bytes.length = 440

/-- What a run takes from outside besides the disk: the boot code for GPT and for DOS, the
random numbers, what the preparation of the target or the final `fsync` answers, and which
writes fail. -/
structure PartRun where
  mbr440 : Bool → BootCode
  chance : Chance
  prepare : Option String
  refuses : Nat → Option Refusal
  finish : Option String

def mbrEntry (status type : UInt8) (first last start count : Nat) : List UInt8 :=
  status :: encodeChs first ++ type :: encodeChs last ++ leBytes 4 start ++ leBytes 4 count

def PartSpec.count (part : PartSpec) : Nat := part.lastLba - part.firstLba + 1

def PartSpec.mbrEntry (part : PartSpec) : List UInt8 :=
  Macos.mbrEntry part.mbrStatus part.mbrType part.firstLba part.lastLba part.firstLba part.count

def protectiveEntry (disk : Geometry) : List UInt8 :=
  let count := min (disk.totalLbas - 1) 0xFFFFFFFF
  Macos.mbrEntry 0x00 0xEE 1 count 1 count

/-- The entries of a table written to a buffer, each at its place. -/
def putEntries (base size : Nat) (encode : Nat → PartSpec → List UInt8) :
    Nat → List PartSpec → ByteMap → ByteMap
  | _, [], buffer => buffer
  | index, part :: rest, buffer =>
      putEntries base size encode (index + 1) rest
        (buffer.put (base + index * size) (encode index part))

def diskSignature (chance : Chance) : Nat :=
  if chance.diskSig = 0 then 0x52554658 else chance.diskSig.toNat

/-- `sec0`. -/
def firstSector (run : PartRun) (isGpt : Bool) (plan : Plan) : ByteMap :=
  let started := (zeros.put 0 (run.mbr440 isGpt).bytes).put 440
    (leBytes 4 (diskSignature run.chance))
  let listed :=
    if isGpt then started.put 446 (protectiveEntry plan.disk)
    else putEntries 446 16 (fun _ part => part.mbrEntry) 0 plan.parts started
  listed.put 510 [0x55, 0xAA]

/-- One entry of a GPT up to its name. -/
def gptEntry (chance : Chance) (index : Nat) (part : PartSpec) : List UInt8 :=
  part.gptType ++ genRandomGuidV4 (chance.entryGuid index) ++ leBytes 8 part.firstLba ++
    leBytes 8 part.lastLba ++ leBytes 8 part.gptAttrs ++ encodeUtf16leName part.gptName

def entryArrayBytes : Nat := 128 * 128

def gptEntries (chance : Chance) (parts : List PartSpec) : ByteMap :=
  putEntries 0 128 (gptEntry chance) 0 parts zeros

def efiPart : List UInt8 := [69, 70, 73, 32, 80, 65, 82, 84]

/-- A GPT header whose own checksum is still zero. -/
def rawHeader (chance : Chance) (disk : Geometry) (entriesCrc myLba otherLba entriesLba : Nat) :
    ByteMap :=
  (((((((((((zeros.put 0 efiPart).put 8 (leBytes 4 0x00010000)).put 12 (leBytes 4 92)).put 24
    (leBytes 8 myLba)).put 32 (leBytes 8 otherLba)).put 40 (leBytes 8 disk.firstUsableLba)).put 48
    (leBytes 8 disk.lastUsableLba)).put 56 (genRandomGuidV4 chance.diskGuid)).put 72
    (leBytes 8 entriesLba)).put 80 (leBytes 4 128)).put 84 (leBytes 4 128)).put 88
    (leBytes 4 entriesCrc)

def sealHeader (header : ByteMap) : ByteMap :=
  header.put 16 (leBytes 4 (crc32Ieee (header.get 0 92)))

def primaryHeader (chance : Chance) (plan : Plan) : ByteMap :=
  sealHeader (rawHeader chance plan.disk
    (crc32Ieee ((gptEntries chance plan.parts).get 0 entryArrayBytes)) 1 plan.disk.lastLba 2)

def backupEntriesLba (disk : Geometry) : Nat := disk.lastLba - disk.entrySectors

/-- The 92 bytes of the primary header with the fields that differ put in anew. -/
def backupHeader (chance : Chance) (plan : Plan) : ByteMap :=
  sealHeader (((((zeros.place 0 (primaryHeader chance plan) 92).put 16 (leBytes 4 0)).put 24
    (leBytes 8 plan.disk.lastLba)).put 32 (leBytes 8 1)).put 72
    (leBytes 8 (backupEntriesLba plan.disk)))

def labelled (failed : String → String) (writes : List Write) : List TableWrite :=
  writes.map fun write => { write, failed }

/-- The old tables' sectors at the head and at the tail of the disk. -/
def wipeTables (bnode : String) (plan : Plan) : List TableWrite :=
  let secSz := plan.secSz
  labelled (fun why => s!"failed wiping primary table on '{bnode}': {why}")
      (zeroRange 0 (min 34 plan.disk.totalLbas * secSz)) ++
    if 34 < plan.disk.totalLbas then
      labelled (fun why => s!"failed wiping backup table on '{bnode}': {why}")
        (zeroRange ((plan.disk.lastLba - 33) * secSz) (34 * secSz))
    else []

/-- The first and the last mebibyte of a partition, or all of one that has no more. -/
def wipePart (bnode : String) (secSz index : Nat) (part : PartSpec) : List TableWrite :=
  let poff := part.firstLba * secSz
  let plen := part.count * secSz
  if plen ≤ 2 * zcap then
    labelled (fun _ => s!"failed wiping partition {index} on '{bnode}'") (zeroRange poff plen)
  else
    labelled (fun _ => s!"failed wiping partition {index} edges on '{bnode}'")
      (zeroRange poff zcap ++ zeroRange (poff + plen - zcap) zcap)

def wipeParts (bnode : String) (secSz : Nat) : Nat → List PartSpec → List TableWrite
  | _, [] => []
  | index, part :: rest =>
      wipePart bnode secSz index part ++ wipeParts bnode secSz (index + 1) rest

def writeMbr (run : PartRun) (bnode : String) (isGpt : Bool) (plan : Plan) : TableWrite where
  write := { off := 0, len := plan.secSz, source := firstSector run isGpt plan }
  failed why := s!"failed writing MBR to '{bnode}': {why}"

def writeGpt (chance : Chance) (bnode : String) (plan : Plan) : List TableWrite :=
  let secSz := plan.secSz
  let entries := gptEntries chance plan.parts
  labelled (fun why => s!"failed writing GPT tables to '{bnode}': {why}")
    [{ off := 1 * secSz, len := secSz, source := primaryHeader chance plan },
      { off := 2 * secSz, len := entryArrayBytes, source := entries },
      { off := backupEntriesLba plan.disk * secSz, len := entryArrayBytes, source := entries },
      { off := plan.disk.lastLba * secSz, len := secSz, source := backupHeader chance plan }]

/-- Everything that `rufux_partition` writes, in order. -/
def tableWrites (run : PartRun) (bnode : String) (isGpt : Bool) (plan : Plan) : List TableWrite :=
  wipeTables bnode plan ++ wipeParts bnode plan.secSz 1 plan.parts ++
    writeMbr run bnode isGpt plan :: if isGpt then writeGpt run.chance bnode plan else []

/-- `rufux_macos_block_node`. -/
def rufuxMacosBlockNode (dev : String) : String :=
  if "/dev/rdisk".toList <+: dev.toList ∧ (dev.toList.getD 10 ' ').isDigit then
    String.ofList ("/dev/disk".toList ++ dev.toList.drop 10)
  else dev

/-- `rufux_partition` on a device. -/
def rufuxPartitionOn (target : Target) (opts : PartOpts) (run : PartRun) (device : Device) :
    Except String Unit × Device :=
  match (rufuxPartition target opts).run 64 with
  | .error refusal => (.error refusal, device)
  | .ok none => (.ok (), device)
  | .ok (some plan) =>
      match run.prepare with
      | some refusal => (.error refusal, device)
      | none =>
          match performAll run.refuses device 0
              (tableWrites run (rufuxMacosBlockNode target.dst) (decide (opts.scheme = some "gpt")) plan) with
          | (.error failed, left) => (.error failed, left)
          | (.ok (), left) =>
              match run.finish with
              | some failed => (.error failed, left)
              | none => (.ok (), left)

end Rufux.Macos
