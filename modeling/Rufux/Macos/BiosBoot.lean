import Rufux.Macos.RoundTrip

/-!
`rufux_windows_bios_install`: where the core image goes on a DOS or a GPT disk, the two
images as they are patched, and the writes that put them on the disk.
-/

namespace Rufux.Macos

open Library ByteMap

/-- A 64-bit word. -/
def word64 (value : Nat) : Nat := value % 2 ^ 64

/-- What a run of the installer takes from outside: the checks before it starts, the images,
and which calls fail. A target that is not a device has sectors of 512 bytes
(`rufux_macos_sector_size`). -/
structure BootRun (target : Target) where
  isBootDisk : Bool
  located : Option String
  moddir : String
  statted : Option String
  isDev : Bool
  regular : isDev = false → target.sectorSize = 512
  bootImg : List UInt8
  generated : Option String
  coreImg : List UInt8
  opened : Option String
  refuses : Nat → Option Refusal
  synced : Option String

/-- The sector size that the installer works with. -/
def installSectorSize (target : Target) (isDev : Bool) : Nat :=
  let secSz := if isDev then target.sectorSize.toNat else 512
  if secSz < 512 ∨ 4096 < secSz ∨ secSz % 512 ≠ 0 then 512 else secSz

/-- One turn of the loop in `first_part_lba`. -/
def firstPartStep (mbr : ByteMap) (best index : Nat) : Nat :=
  let entry := 446 + index * 16
  let lba := mbr.le (entry + 8) 4
  if mbr (entry + 4) ≠ 0 ∧ mbr.le (entry + 12) 4 ≠ 0 ∧ (best = 0 ∨ lba < best) then lba else best

/-- `first_part_lba`. -/
def firstPartLba (mbr : ByteMap) : Nat := (List.range 4).foldl (firstPartStep mbr) 0

/-- `is_gpt`. -/
def isGptMbr (mbr : ByteMap) : Bool := decide (mbr (446 + 4) = 0xEE)

/-- The first entry of an array that is a BIOS boot partition. -/
def biosBootEntry (ents : ByteMap) (total entSz : Nat) : Option Nat :=
  (List.range (total / entSz)).find? fun index => ents.get (index * entSz) 16 = guidBiosBoot

/-- `gpt_bios_boot`: the first sector of the BIOS boot partition, and how many sectors of 512
bytes it has. -/
def gptBiosBoot (bnode : String) (disk : Device) (secSz : Nat) : Except String (Nat × Nat) :=
  match disk.pread secSz 512 with
  | none => .error s!"'{bnode}' has no readable GPT header at LBA 1"
  | some hdr =>
      if hdr.get 0 8 ≠ efiPart then .error s!"'{bnode}' has no readable GPT header at LBA 1"
      else
        let entLba := hdr.le 72 8
        let numEnts := hdr.le 80 4
        let entSz := hdr.le 84 4
        if entLba < 2 ∨ numEnts = 0 ∨ entSz < 128 ∨ 4096 < entSz then
          .error s!"'{bnode}' has a malformed GPT header"
        else
          let total := min (numEnts * entSz) (2 ^ 20)
          let found := do
            let ents ← disk.pread (word64 (entLba * secSz)) total
            let index ← biosBootEntry ents total entSz
            let first := ents.le (index * entSz + 32) 8
            let last := ents.le (index * entSz + 40) 8
            if last < first ∨ first = 0 then none
            else some (first, word64 (word64 (last - first + 1) * (secSz / 512)))
          match found with
          | some area => .ok area
          | none =>
              .error s!"'{bnode}' has no BIOS boot partition, so it cannot start on legacy BIOS"

/-- Where the core image goes: its first sector and how many sectors there are for it, both in
sectors of 512 bytes. -/
def coreArea (bnode : String) (disk : Device) (secSz : Nat) (before : ByteMap) :
    Except String (Nat × Nat) :=
  if isGptMbr before then
    (gptBiosBoot bnode disk secSz).map fun area => (word64 (area.1 * (secSz / 512)), area.2)
  else
    let firstNative := firstPartLba before
    let first512 := firstNative * (secSz / 512)
    if firstNative = 0 then .error s!"'{bnode}' has no MBR partitions"
    else if first512 ≤ 1 then
      .error s!"MBR gap before partition 1 (0 sectors; partition 1 starts at LBA {first512}) is too small for core.img"
    else .ok (1, first512 - 1)

def coreSectors (core : List UInt8) : Nat := (core.length + 511) / 512

/-- The size checks on a generated core image. -/
def checkCore (isGpt : Bool) (core : List UInt8) (coreLba avail : Nat) : Except String Unit :=
  if core.length < 1024 ∨ 1024 * 1024 < core.length then
    .error s!"generated core.img has invalid size ({core.length} bytes)"
  else if coreSectors core < 2 ∨ 0xFFFF < coreSectors core then
    .error s!"core.img sector count ({coreSectors core}) out of range"
  else if avail < coreSectors core then
    if isGpt then
      .error s!"BIOS boot partition at LBA {coreLba} is {avail} sectors, too small for core.img ({coreSectors core} needed)"
    else
      .error s!"MBR gap before partition 1 ({avail} sectors) is too small for core.img ({coreSectors core} needed)"
  else .ok ()

/-- The stretch of whole device sectors that the core image is written with. -/
structure Span where
  aligned : Nat
  lead : Nat
  raw : Nat
  total : Nat

def coreSpan (secSz coreLba : Nat) (core : List UInt8) : Span :=
  let raw := coreSectors core * 512
  let byteOff := word64 (coreLba * 512)
  let aligned := byteOff / secSz * secSz
  let lead := byteOff - aligned
  { aligned, lead, raw, total := (lead + raw + secSz - 1) / secSz * secSz }

/-- The block list in the first sector of a core image: where the rest of it starts, of how
many sectors it is, and the segment it is loaded to. -/
def patchCore (buffer : ByteMap) (off coreLba sectors : Nat) : ByteMap :=
  (((buffer.place (off + 488) zeros 12).put (off + 500) (leBytes 8 (coreLba + 1))).put (off + 508)
    (leBytes 2 (sectors - 1))).put (off + 510) (leBytes 2 0x0820)

/-- `core_buf`: what the sectors around the image hold already, the image, and its patch. -/
def coreBuf (disk : Device) (coreLba : Nat) (core : List UInt8) (span : Span) : ByteMap :=
  let started :=
    if 0 < span.lead ∨ span.lead + span.raw < span.total then
      ((disk.pread span.aligned span.total).getD zeros).place span.lead zeros span.raw
    else zeros
  patchCore (started.put span.lead core) span.lead coreLba (coreSectors core)

/-- `new_mbr`. -/
def newMbr (before : ByteMap) (boot : List UInt8) (coreLba : Nat) : ByteMap :=
  (((before.put 0 (boot.take 440)).put 0x5c (leBytes 8 coreLba)).put 0x64 [0xFF]).put 0x66
    [0x90, 0x90]

/-- The writes: one for both images where the first device sector holds the start of the core
image too, else one for each. -/
def bootWrites (secSz : Nat) (mbr buffer : ByteMap) (span : Span) : List TableWrite :=
  if span.aligned = 0 ∧ 512 ≤ span.lead then
    [{ write := { off := 0, len := span.total, source := buffer.place 0 mbr 512 }
       failed why := s!"writing GRUB MBR + core.img failed: {why}" }]
  else
    [{ write := { off := 0, len := secSz, source := mbr }
       failed why := s!"writing GRUB boot.img MBR failed: {why}" },
      { write := { off := span.aligned, len := span.total, source := buffer }
        failed why := s!"writing GRUB core.img failed: {why}" }]

/-- What the installer reads back. -/
def verifyBoot (bnode : String) (disk : Device) (secSz : Nat) (isGpt : Bool) (before : ByteMap) :
    Except String Unit :=
  match disk.pread 0 secSz with
  | none => .error "BIOS boot installation left MBR partition table in an unexpected state"
  | some after =>
      if after 510 ≠ 0x55 ∨ after 511 ≠ 0xAA ∨ before.get 440 72 ≠ after.get 440 72 ∨
          after 0 = 0 then
        .error "BIOS boot installation left MBR partition table in an unexpected state"
      else if isGpt then
        match gptBiosBoot bnode disk secSz with
        | .ok _ => .ok ()
        | .error _ => .error "BIOS boot installation left GPT header in an unexpected state"
      else .ok ()

/-- What has been decided when the first write is made. -/
structure BootPlan where
  secSz : Nat
  before : ByteMap
  isGpt : Bool
  coreLba : Nat

/-- The checks before anything is read: the path, the boot disk, GRUB's files, `stat`. -/
def checkBootTarget (target : Target) (run : BootRun target) : Except String Unit :=
  if target.dst = "" then .error "empty disk path"
  else if run.isBootDisk then .error s!"refusing boot/system disk '{target.dst}'"
  else
    match run.located with
    | some why => .error why
    | none =>
        match run.statted with
        | some why => .error s!"cannot stat '{rufuxMacosBlockNode target.dst}': {why}"
        | none => .ok ()

def checkBootImg (moddir : String) (boot : List UInt8) : Except String Unit :=
  if boot.length < 512 ∨ boot.getD 510 0 ≠ 0x55 ∨ boot.getD 511 0 ≠ 0xAA then
    .error s!"invalid GRUB boot.img at '{moddir}/boot.img'"
  else .ok ()

/-- The first sector, if it bears the signature. -/
def readMbr (bnode : String) (disk : Device) (secSz : Nat) : Except String ByteMap :=
  match disk.pread 0 secSz with
  | none => .error s!"'{bnode}' has no valid MBR/protective-MBR signature"
  | some before =>
      if before 510 ≠ 0x55 ∨ before 511 ≠ 0xAA then
        .error s!"'{bnode}' has no valid MBR/protective-MBR signature"
      else .ok before

def orRefuse (refusal : Option String) : Except String Unit :=
  match refusal with
  | some why => .error why
  | none => .ok ()

/-- `rufux_windows_bios_install` up to its first write. -/
def prepareBoot (target : Target) (run : BootRun target) (disk : Device) :
    Except String BootPlan := do
  let bnode := rufuxMacosBlockNode target.dst
  let secSz := installSectorSize target run.isDev
  checkBootTarget target run
  let before ← readMbr bnode disk secSz
  checkBootImg run.moddir run.bootImg
  let area ← coreArea bnode disk secSz before
  orRefuse run.generated
  checkCore (isGptMbr before) run.coreImg area.1 area.2
  orRefuse (run.opened.map fun why => s!"cannot open '{bnode}' for BIOS boot install: {why}")
  return { secSz, before, isGpt := isGptMbr before, coreLba := area.1 }

/-- The line that a successful installation logs. -/
def installedLine (isGpt : Bool) : String :=
  if isGpt then
    "Legacy BIOS boot code installed (GRUB 2 in the BIOS boot partition; it starts bootmgr)."
  else "Legacy BIOS boot code installed (GRUB 2 in the MBR gap; it starts bootmgr)."

/-- `rufux_windows_bios_install` on a disk; its answer is the line that it logs. -/
def rufuxWindowsBiosInstall (target : Target) (run : BootRun target) (disk : Device) :
    Except String String × Device :=
  let bnode := rufuxMacosBlockNode target.dst
  match prepareBoot target run disk with
  | .error why => (.error why, disk)
  | .ok boot =>
      let span := coreSpan boot.secSz boot.coreLba run.coreImg
      let buffer := coreBuf disk boot.coreLba run.coreImg span
      let mbr := newMbr boot.before run.bootImg boot.coreLba
      match performAll run.refuses disk 0 (bootWrites boot.secSz mbr buffer span) with
      | (.error why, left) => (.error why, left)
      | (.ok (), left) =>
          match run.synced with
          | some why => (.error s!"fsync failed on '{bnode}': {why}", left)
          | none =>
              match verifyBoot bnode left boot.secSz boot.isGpt boot.before with
              | .error why => (.error why, left)
              | .ok () => (.ok (installedLine boot.isGpt), left)

section Preparing

variable {target : Target} {run : BootRun target} {disk : Device} {boot : BootPlan} {secSz : Nat}
  {before : ByteMap} {bnode : String}

theorem bind_ok {first : Except String α} {next : α → Except String β} {result : β}
    (ok : (first >>= next) = .ok result) : ∃ value, first = .ok value ∧ next value = .ok result := by
  cases first with
  | error why => cases ok
  | ok value => exact ⟨value, rfl, ok⟩

theorem readMbr_ok (ok : readMbr bnode disk secSz = .ok before) :
    disk.Reaches 0 secSz ∧ (∀ index, before index = disk.bytes index) ∧
      before 510 = 0x55 ∧ before 511 = 0xAA := by
  unfold readMbr Device.pread at ok
  split at ok
  · cases ok
  rename_i found read
  split at ok
  · cases ok
  rename_i signature
  cases ok
  split at read
  · rename_i reach
    cases read
    refine ⟨reach, fun index => congrArg disk.bytes (Nat.zero_add index), ?_⟩
    simpa using signature
  · cases read

theorem checkCore_ok {isGpt : Bool} {core : List UInt8} {coreLba avail : Nat}
    (ok : checkCore isGpt core coreLba avail = .ok ()) :
    1024 ≤ core.length ∧ core.length ≤ 1024 * 1024 ∧ coreSectors core ≤ avail := by
  unfold checkCore at ok
  split at ok
  · cases ok
  split at ok
  · cases ok
  split at ok
  · split at ok <;> cases ok
  · omega

theorem checkBootImg_ok {moddir : String} {image : List UInt8}
    (ok : checkBootImg moddir image = .ok ()) : 512 ≤ image.length := by
  unfold checkBootImg at ok
  split at ok
  · cases ok
  · omega

/-- What an installer that gets to its first write has found. -/
structure Decided (target : Target) (run : BootRun target) (disk : Device) (boot : BootPlan) :
    Prop where
  secSz : boot.secSz = installSectorSize target run.isDev
  reach : disk.Reaches 0 boot.secSz
  before : ∀ index, boot.before index = disk.bytes index
  isGpt : boot.isGpt = isGptMbr boot.before
  image : 512 ≤ run.bootImg.length
  area : ∃ avail, coreArea (rufuxMacosBlockNode target.dst) disk boot.secSz boot.before =
    .ok (boot.coreLba, avail) ∧ coreSectors run.coreImg ≤ avail
  least : 1024 ≤ run.coreImg.length
  most : run.coreImg.length ≤ 1024 * 1024

theorem prepareBoot_ok (ok : prepareBoot target run disk = .ok boot) :
    Decided target run disk boot := by
  obtain ⟨_, _, ok⟩ := bind_ok ok
  obtain ⟨before, read, ok⟩ := bind_ok ok
  obtain ⟨_, image, ok⟩ := bind_ok ok
  obtain ⟨⟨coreLba, avail⟩, area, ok⟩ := bind_ok ok
  obtain ⟨_, _, ok⟩ := bind_ok ok
  obtain ⟨_, core, ok⟩ := bind_ok ok
  obtain ⟨_, _, ok⟩ := bind_ok ok
  cases ok
  obtain ⟨reach, same, _⟩ := readMbr_ok read
  obtain ⟨least, most, fits⟩ := checkCore_ok core
  exact ⟨rfl, reach, same, rfl, checkBootImg_ok image, ⟨avail, area, fits⟩, least, most⟩

end Preparing

end Rufux.Macos
