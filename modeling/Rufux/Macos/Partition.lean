import Rufux.Library.WordProg

/-!
The partition layout of the macOS front end: the checks of `rufux_partition`, the sector
arithmetic in 64-bit words, and the geometry of every layout it accepts.
-/

namespace Rufux.Macos

open Library Library.WordProg

def guidMsBasicData : List UInt8 :=
  [0xA2, 0xA0, 0xD0, 0xEB, 0xE5, 0xB9, 0x33, 0x44, 0x87, 0xC0, 0x68, 0xB6, 0xB7, 0x26, 0x99, 0xC7]

def guidLinuxFs : List UInt8 :=
  [0xAF, 0x3D, 0xC6, 0x0F, 0x83, 0x84, 0x72, 0x47, 0x8E, 0x79, 0x3D, 0x69, 0xD8, 0x47, 0x7D, 0xE4]

def guidEsp : List UInt8 :=
  [0x28, 0x73, 0x2A, 0xC1, 0x1F, 0xF8, 0xD2, 0x11, 0xBA, 0x4B, 0x00, 0xA0, 0xC9, 0x3E, 0xC9, 0x3B]

def guidBiosBoot : List UInt8 :=
  [0x48, 0x61, 0x68, 0x21, 0x49, 0x64, 0x6F, 0x6E, 0x74, 0x4E, 0x65, 0x65, 0x64, 0x45, 0x46, 0x49]

structure PartSpec where
  firstLba : Nat
  lastLba : Nat
  mbrStatus : UInt8 := 0
  mbrType : UInt8 := 0
  gptType : List UInt8
  gptAttrs : Nat := 0
  gptName : String := ""
  deriving DecidableEq, Repr

/-- Options of a partitioning request; a C string that may be null is an option. -/
structure PartOpts where
  scheme : Option String
  layout : Option String
  fsMain : Option String
  biosBoot : Bool
  dryRun : Bool
  yes : Bool

/-- What the platform answers about a target path. -/
structure Target where
  dst : String
  checkTarget : Option String
  devBytes : BitVec 64
  sectorSize : BitVec 32

/-- The figures that every layout is computed from. -/
structure Geometry where
  mib : Nat
  spm : Nat
  totalLbas : Nat
  entrySectors : Nat
  lastLba : Nat
  firstUsableLba : Nat
  lastUsableLba : Nat

def mbrTypeOf (fsMain : Option String) : UInt8 :=
  match fsMain with
  | none => 0x0C
  | some fs =>
      if fs = "fat16" then 0x0E
      else if fs = "ntfs" ∨ fs = "exfat" ∨ fs = "udf" then 0x07
      else if fs = "ext4" ∨ fs = "ext3" ∨ fs = "ext2" then 0x83
      else 0x0C

/-- The last sector of a range that starts at a sector and has so many. -/
def lastOf (first sectors : Nat) : WordProg String Nat := do
  let past ← add first sectors
  sub past 1

def lastOfMib (disk : Geometry) (first mib : Nat) : WordProg String Nat := do
  let sectors ← mul mib disk.spm
  lastOf first sectors

/-- The mebibyte that follows a sector: its first and its last sector. -/
def nextMib (disk : Geometry) (previous : Nat) : WordProg String (Nat × Nat) := do
  let first ← add previous 1
  let last ← lastOf first disk.spm
  return (first, last)

def biosBootPart (range : Nat × Nat) : PartSpec := {
  firstLba := range.1, lastLba := range.2, gptType := guidBiosBoot, gptName := "BIOS boot" }

def mainUefintfsParts (disk : Geometry) (biosPart : Bool) (mbrType : UInt8) :
    WordProg String (List PartSpec) := do
  let withoutTail ← sub disk.mib 3
  let mainMib ← sub withoutTail (if biosPart then 1 else 0)
  let mainLast ← lastOfMib disk disk.spm mainMib
  let helper ← nextMib disk mainLast
  let windows : PartSpec := {
    firstLba := disk.spm, lastLba := mainLast, mbrStatus := 0x80, mbrType,
    gptType := guidMsBasicData, gptName := "Windows" }
  let uefiNtfs : PartSpec := {
    firstLba := helper.1, lastLba := helper.2, mbrType := 0xEF,
    gptType := guidMsBasicData, gptAttrs := 0x8000000000000000, gptName := "UEFI:NTFS" }
  if biosPart then
    let bios ← nextMib disk helper.2
    return [windows, uefiNtfs, biosBootPart bios]
  else
    return [windows, uefiNtfs]

/-- The end of a data partition that runs to the end of the disk. A DOS entry counts its
sectors in 32 bits, so there the partition is cut to what an entry can say. -/
def openEnd (disk : Geometry) (isGpt : Bool) (first : Nat) : WordProg String Nat := do
  if isGpt then
    return disk.lastUsableLba
  else
    let span ← sub disk.lastLba first
    let count ← add span 1
    if 0xFFFFFFFF < count then
      lastOf first 0xFFFFFFFF
    else
      return disk.lastLba

def singleParts (disk : Geometry) (isGpt biosPart : Bool) (mbrType : UInt8) :
    WordProg String (List PartSpec) := do
  let gtype := if mbrType = 0x83 then guidLinuxFs else guidMsBasicData
  if biosPart then
    let mainMib ← sub disk.mib 3
    let mainLast ← lastOfMib disk disk.spm mainMib
    let bios ← nextMib disk mainLast
    return [{ firstLba := disk.spm, lastLba := mainLast, gptType := gtype }, biosBootPart bios]
  else
    let endLba ← openEnd disk isGpt disk.spm
    return [{
      firstLba := disk.spm, lastLba := endLba, mbrStatus := 0x80, mbrType,
      gptType := gtype }]

def espMainParts (disk : Geometry) (isGpt biosPart : Bool) (mbrType : UInt8) :
    WordProg String (List PartSpec) := do
  let espLast ← lastOfMib disk disk.spm 512
  let esp : PartSpec := {
    firstLba := disk.spm, lastLba := espLast, mbrType := 0xEF, gptType := guidEsp }
  let mainFirst ← add espLast 1
  if biosPart then
    let mainMib ← sub disk.mib 515
    let mainLast ← lastOfMib disk mainFirst mainMib
    let bios ← nextMib disk mainLast
    return [esp, { firstLba := mainFirst, lastLba := mainLast, gptType := guidMsBasicData },
      biosBootPart bios]
  else
    let endLba ← openEnd disk isGpt mainFirst
    return [esp, {
      firstLba := mainFirst, lastLba := endLba, mbrStatus := 0x80, mbrType,
      gptType := guidMsBasicData }]

def checkPart (dst : String) (disk : Geometry) (isGpt : Bool) (index : Nat) (part : PartSpec) :
    WordProg String Unit := do
  if part.lastLba < part.firstLba then
    .fail s!"computed invalid partition {index} range on '{dst}'"
  else if isGpt then
    if part.firstLba < disk.firstUsableLba ∨ disk.lastUsableLba < part.lastLba then
      .fail s!"partition {index} exceeds usable GPT bounds on '{dst}'"
    else
      return ()
  else
    let span ← sub part.lastLba part.firstLba
    let cnt ← add span 1
    if 0xFFFFFFFF < part.firstLba ∨ 0xFFFFFFFF < cnt then
      .fail s!"target '{dst}' exceeds 2 TiB MBR LBA limit; use --scheme gpt"
    else
      return ()

def checkParts (dst : String) (disk : Geometry) (isGpt : Bool) :
    Nat → List PartSpec → WordProg String Unit
  | _, [] => return ()
  | index, part :: rest => do
      checkPart dst disk isGpt index part
      checkParts dst disk isGpt (index + 1) rest

def badSectorSize (target : Target) : WordProg String α :=
  .fail s!"unsupported logical sector size {target.sectorSize.toNat} on '{target.dst}'"

/-- The sector size, once the checks on it have passed. -/
def checkedSectorSize (target : Target) : WordProg String Nat := do
  let secSz := target.sectorSize.toNat
  if secSz < 512 ∨ 4096 < secSz then
    badSectorSize target
  else
    let below ← sub secSz 1
    if secSz &&& below ≠ 0 ∨ 1048576 % secSz ≠ 0 then
      badSectorSize target
    else
      return secSz

def diskGeometry (target : Target) (secSz mib : Nat) : WordProg String Geometry := do
  let spm := 1048576 / secSz
  let totalLbas := target.devBytes.toNat / secSz
  let entrySectors := 16384 / secSz
  let twoMib ← mul 2 spm
  let table ← add entrySectors 2
  let tables ← mul 2 table
  let least ← add twoMib tables
  if totalLbas < least then
    .fail s!"target '{target.dst}' ({target.devBytes.toNat} bytes) is too small to partition"
  else
    let lastLba ← sub totalLbas 1
    let firstUsableLba ← add 2 entrySectors
    let backupEntries ← sub lastLba entrySectors
    let lastUsableLba ← sub backupEntries 1
    return { mib, spm, totalLbas, entrySectors, lastLba, firstUsableLba, lastUsableLba }

def layoutParts (disk : Geometry) (layout : String) (isGpt biosPart : Bool) (mbrType : UInt8) :
    WordProg String (List PartSpec) :=
  if layout = "main+uefintfs" then mainUefintfsParts disk biosPart mbrType
  else if layout = "single" then singleParts disk isGpt biosPart mbrType
  else espMainParts disk isGpt biosPart mbrType

/-- What a request asks for once its options have passed. -/
structure Request where
  layout : String
  isGpt : Bool
  biosPart : Bool

def checkedRequest (target : Target) (opts : PartOpts) : WordProg String Request :=
  match opts.scheme, opts.layout with
  | some rawScheme, some layout =>
      if target.dst = "" then
        .fail "invalid partition options"
      else if rawScheme ≠ "gpt" ∧ rawScheme ≠ "dos" ∧ rawScheme ≠ "mbr" then
        .fail "scheme must be gpt|dos (mbr alias dos)"
      else if layout ≠ "single" ∧ layout ≠ "esp+main" ∧ layout ≠ "main+uefintfs" then
        .fail "layout must be single|esp+main|main+uefintfs"
      else if !opts.dryRun && !opts.yes then
        .fail "refusing real partition without --yes"
      else
        match target.checkTarget with
        | some refusal => .fail refusal
        | none =>
            let scheme := if rawScheme = "mbr" then "dos" else rawScheme
            let isGpt := decide (scheme = "gpt")
            .done { layout, isGpt, biosPart := opts.biosBoot && isGpt }
  | _, _ => .fail "invalid partition options"

def checkWindowsMib (dst : String) (request : Request) (mib : Nat) : WordProg String Unit :=
  if request.layout = "main+uefintfs" ∧ mib < 64 then
    .fail s!"target '{dst}' reports {mib} MiB; the Windows layout needs at least 64 MiB (an empty card-reader slot reports 0)"
  else if request.layout = "single" ∧ request.biosPart = true ∧ mib < 64 then
    .fail s!"target '{dst}' reports {mib} MiB; a GPT layout with a BIOS boot partition needs at least 64 MiB (an empty card-reader slot reports 0)"
  else
    .done ()

def checkEspMib (dst : String) (request : Request) (mib : Nat) : WordProg String Unit := do
  if request.layout = "esp+main" then
    let minEspMib ← add 515 (if request.biosPart then 2 else 0)
    if mib < minEspMib then
      .fail s!"target '{dst}' reports {mib} MiB; esp+main layout needs at least {minEspMib} MiB"
    else
      return ()
  else
    return ()

structure Plan where
  secSz : Nat
  disk : Geometry
  parts : List PartSpec

/-- `rufux_partition` up to the first access to the disk. A dry run has no plan. -/
def rufuxPartition (target : Target) (opts : PartOpts) : WordProg String (Option Plan) := do
  let request ← checkedRequest target opts
  let mib := target.devBytes.toNat >>> 20
  let secSz ← checkedSectorSize target
  checkWindowsMib target.dst request mib
  if opts.dryRun then
    return none
  else
    checkEspMib target.dst request mib
    let disk ← diskGeometry target secSz mib
    let parts ← layoutParts disk request.layout request.isGpt request.biosPart
      (mbrTypeOf opts.fsMain)
    checkParts target.dst disk request.isGpt 1 parts
    return some { secSz, disk, parts }

/-- The sector ranges that a GPT occupies outside its partitions: the protective MBR, the
primary header and entries, the backup entries and header. -/
def Target.gptTables (target : Target) : List (Nat × Nat) :=
  let lastLba := target.devBytes.toNat / target.sectorSize.toNat - 1
  let entrySectors := 16384 / target.sectorSize.toNat
  [(0, 0), (1, 1), (2, entrySectors + 1), (lastLba - entrySectors, lastLba - 1),
    (lastLba, lastLba)]

structure Plan.WellLaid (target : Target) (isGpt : Prop) (plan : Plan) : Prop where
  nonempty : ∀ part ∈ plan.parts, part.firstLba ≤ part.lastLba
  ascending : plan.parts.Pairwise fun before after => before.lastLba < after.firstLba
  aligned : ∀ part ∈ plan.parts, part.firstLba * target.sectorSize.toNat % 1048576 = 0
  inside : ∀ part ∈ plan.parts,
    (part.lastLba + 1) * target.sectorSize.toNat ≤ target.devBytes.toNat
  usable : isGpt → ∀ part ∈ plan.parts, ∀ table ∈ target.gptTables,
    table.2 < part.firstLba ∨ part.lastLba < table.1
  dosFields : ¬ isGpt → ∀ part ∈ plan.parts,
    part.firstLba < 2 ^ 32 ∧ part.lastLba - part.firstLba + 1 < 2 ^ 32

section Sizes

/-- What the geometry of an accepted disk promises the layouts. -/
structure Geometry.Sound (disk : Geometry) (secSz bytes : Nat) : Prop where
  mebibyte : disk.spm * secSz = 1048576
  wide : disk.spm ≤ 2048
  tables : disk.entrySectors + 2 ≤ disk.spm
  least : 2 * disk.spm + 2 * (disk.entrySectors + 2) ≤ disk.totalLbas
  room : disk.mib * disk.spm ≤ disk.totalLbas
  lbas : disk.totalLbas = bytes / secSz
  entries : disk.entrySectors = 16384 / secSz
  word : disk.totalLbas < 2 ^ 56
  last : disk.lastLba + 1 = disk.totalLbas
  firstUsable : disk.firstUsableLba = 2 + disk.entrySectors
  lastUsable : disk.lastUsableLba + 1 + disk.entrySectors = disk.lastLba

theorem sectorSize_cases {secSz : Nat} (least : 512 ≤ secSz) (most : secSz ≤ 4096)
    (divides : 1048576 % secSz = 0) :
    secSz = 512 ∨ secSz = 1024 ∨ secSz = 2048 ∨ secSz = 4096 := by
  have power : secSz ∣ 2 ^ 20 := Nat.dvd_of_mod_eq_zero divides
  obtain ⟨exponent, bound, rfl⟩ := (Nat.dvd_prime_pow Nat.prime_two).mp power
  have low : 9 ≤ exponent := (Nat.pow_le_pow_iff_right (show 1 < 2 by decide)).mp least
  have high : exponent ≤ 12 := (Nat.pow_le_pow_iff_right (show 1 < 2 by decide)).mp most
  interval_cases exponent <;> decide

theorem checkedSectorSize_meets (target : Target) :
    Meets 64 (fun secSz => secSz = target.sectorSize.toNat ∧
      (secSz = 512 ∨ secSz = 1024 ∨ secSz = 2048 ∨ secSz = 4096))
      (checkedSectorSize target) := by
  have word := target.sectorSize.isLt
  simp only [checkedSectorSize]
  split
  · exact meets_fail
  · rename_i range
    apply meets_sub (by omega) (by omega)
    split
    · exact meets_fail
    · rename_i power
      exact meets_done ⟨rfl, sectorSize_cases (by omega) (by omega) (by omega)⟩

/-- Whole mebibytes, sectors and table sectors of a disk, in any accepted sector size. -/
theorem disk_figures {secSz : Nat} (bytes : Nat)
    (sizes : secSz = 512 ∨ secSz = 1024 ∨ secSz = 2048 ∨ secSz = 4096) :
    1048576 / secSz * secSz = 1048576 ∧ 1048576 / secSz ≤ 2048 ∧
      16384 / secSz + 2 ≤ 1048576 / secSz ∧
      bytes / 1048576 * (1048576 / secSz) ≤ bytes / secSz ∧ bytes / secSz ≤ bytes / 512 := by
  rcases sizes with rfl | rfl | rfl | rfl <;> omega

theorem diskGeometry_meets (target : Target) {secSz : Nat}
    (sizes : secSz = 512 ∨ secSz = 1024 ∨ secSz = 2048 ∨ secSz = 4096) :
    Meets 64 (fun disk => disk.mib = target.devBytes.toNat >>> 20 ∧
      disk.Sound secSz target.devBytes.toNat)
      (diskGeometry target secSz (target.devBytes.toNat >>> 20)) := by
  have word := target.devBytes.isLt
  obtain ⟨mebibyte, wide, tables, room, small⟩ := disk_figures target.devBytes.toNat sizes
  simp only [diskGeometry, Nat.shiftRight_eq_div_pow]
  generalize 1048576 / secSz = spm at *
  generalize entries : 16384 / secSz = entrySectors at *
  generalize lbas : target.devBytes.toNat / secSz = totalLbas at *
  apply meets_mul (by omega)
  apply meets_add (by omega)
  apply meets_mul (by omega)
  apply meets_add (by omega)
  split
  · exact meets_fail
  · apply meets_sub (by omega) (by omega)
    apply meets_add (by omega)
    apply meets_sub (by omega) (by omega)
    apply meets_sub (by omega) (by omega)
    refine meets_pure ⟨rfl, ?_⟩
    constructor <;> simp only [entries, lbas] <;> omega

end Sizes

section Layouts

open Geometry

variable {disk : Geometry} {secSz bytes : Nat} {isGpt biosPart : Bool} {mbrType : UInt8}

/-- Parts that follow one another without a gap from a sector on, each aligned to a mebibyte,
none empty and none past the end of the disk. -/
def Geometry.Tiles (disk : Geometry) : Nat → List PartSpec → Prop
  | start, [] => start ≤ disk.totalLbas
  | start, part :: rest =>
      part.firstLba = start ∧ disk.spm ∣ start ∧ start ≤ part.lastLba ∧
        disk.Tiles (part.lastLba + 1) rest

theorem Geometry.Tiles.cons {start : Nat} {part : PartSpec} {rest : List PartSpec} (next : Nat)
    (first : part.firstLba = start) (last : part.lastLba + 1 = next)
    (aligned : disk.spm ∣ start) (nonempty : start < next) (tail : disk.Tiles next rest) :
    disk.Tiles start (part :: rest) := by
  subst last
  exact ⟨first, aligned, Nat.le_of_lt_succ nonempty, tail⟩

theorem Geometry.Tiles.bounded {start : Nat} {parts : List PartSpec}
    (tiles : disk.Tiles start parts) : start ≤ disk.totalLbas := by
  induction parts generalizing start with
  | nil => exact tiles
  | cons part rest ih =>
      obtain ⟨_, _, nonempty, tail⟩ := tiles
      have := ih tail
      omega

theorem Geometry.Tiles.each {start : Nat} {parts : List PartSpec}
    (tiles : disk.Tiles start parts) :
    ∀ part ∈ parts, start ≤ part.firstLba ∧ disk.spm ∣ part.firstLba ∧
      part.firstLba ≤ part.lastLba ∧ part.lastLba < disk.totalLbas := by
  induction parts generalizing start with
  | nil => simp
  | cons head rest ih =>
      obtain ⟨rfl, aligned, nonempty, tail⟩ := tiles
      intro part member
      rcases List.mem_cons.mp member with rfl | later
      · exact ⟨Nat.le_refl _, aligned, nonempty, tail.bounded⟩
      · obtain ⟨after, rest⟩ := ih tail part later
        exact ⟨by omega, rest⟩

theorem Geometry.Tiles.ascending {start : Nat} {parts : List PartSpec}
    (tiles : disk.Tiles start parts) :
    parts.Pairwise fun before after => before.lastLba < after.firstLba := by
  induction parts generalizing start with
  | nil => exact List.Pairwise.nil
  | cons head rest ih =>
      have tail := tiles.2.2.2
      exact List.pairwise_cons.mpr ⟨fun later member => (tail.each later member).1, ih tail⟩

theorem lastOf_meets {first sectors : Nat} (fits : first + sectors < 2 ^ 64)
    (positive : 0 < sectors) :
    Meets 64 (fun last => last = first + sectors - 1) (lastOf first sectors) :=
  meets_add fits (meets_sub fits (by omega) (meets_done rfl))

theorem lastOfMib_meets {first mib : Nat} (fits : first + mib * disk.spm < 2 ^ 64)
    (positive : 0 < mib * disk.spm) :
    Meets 64 (fun last => last = first + mib * disk.spm - 1) (lastOfMib disk first mib) :=
  meets_mul (by omega) (lastOf_meets fits positive)

theorem nextMib_meets {previous : Nat} (fits : previous + 1 + disk.spm < 2 ^ 64)
    (positive : 0 < disk.spm) :
    Meets 64 (fun range => range = (previous + 1, previous + 1 + disk.spm - 1))
      (nextMib disk previous) :=
  meets_add (by omega) (meets_bind_eq (lastOf_meets fits positive) (meets_pure rfl))

/-- A range that ends one sector before the next one starts. -/
theorem end_succ {first sectors : Nat} (positive : 0 < sectors) :
    first + sectors - 1 + 1 = first + sectors := by
  omega

theorem mebibytes_sub {mib taken : Nat} (spm : Nat) (enough : taken ≤ mib) :
    (mib - taken) * spm + taken * spm = mib * spm := by
  rw [← Nat.add_mul, Nat.sub_add_cancel enough]

theorem openEnd_meets (sound : disk.Sound secSz bytes) {first : Nat}
    (room : first + disk.entrySectors + 2 ≤ disk.lastLba) :
    Meets 64 (fun last => first ≤ last ∧ last < disk.totalLbas) (openEnd disk isGpt first) := by
  obtain ⟨_, _, _, _, _, _, word, lastLba, _, lastUsable⟩ := sound
  unfold openEnd
  split
  · exact meets_pure (by omega)
  · apply meets_sub (by omega) (by omega)
    apply meets_add (by omega)
    split
    · refine meets_mono (lastOf_meets (by omega) (by omega)) ?_
      intro last same
      omega
    · exact meets_pure (by omega)

/-- The data partition of a layout and what follows it: `taken` mebibytes stay outside. -/
theorem mainMib_figures (sound : disk.Sound secSz bytes) {taken : Nat}
    (large : taken < disk.mib) :
    0 < (disk.mib - taken) * disk.spm ∧ disk.spm ∣ (disk.mib - taken) * disk.spm ∧
      (disk.mib - taken) * disk.spm + taken * disk.spm ≤ disk.totalLbas ∧
      disk.mib < 2 ^ 56 := by
  have positive : 0 < disk.spm := by have := sound.tables; omega
  have room := sound.room
  have word := sound.word
  have whole : disk.mib ≤ disk.mib * disk.spm := Nat.le_mul_of_pos_right _ positive
  have size := mebibytes_sub disk.spm (Nat.le_of_lt large)
  exact ⟨Nat.mul_pos (by omega) positive, Nat.dvd_mul_left _ _, by omega, by omega⟩

theorem mainUefintfsParts_meets (sound : disk.Sound secSz bytes) (large : 64 ≤ disk.mib) :
    Meets 64 (disk.Tiles disk.spm) (mainUefintfsParts disk biosPart mbrType) := by
  obtain ⟨positive, mainAligned, room, word⟩ := mainMib_figures sound
    (show 3 + (if biosPart then 1 else 0) < disk.mib by split <;> omega)
  have spmPositive : 0 < disk.spm := by have := sound.tables; omega
  have wide := sound.wide
  have lbas := sound.word
  unfold mainUefintfsParts
  apply meets_sub (by omega) (by omega)
  apply meets_sub (by omega) (by split <;> omega)
  rw [Nat.sub_sub]
  generalize disk.mib - (3 + if biosPart then 1 else 0) = mainMib at *
  rw [Nat.add_mul] at room
  have helperAligned := Nat.dvd_add (Nat.dvd_refl disk.spm) mainAligned
  have nextAligned := Nat.dvd_add helperAligned (Nat.dvd_refl disk.spm)
  apply meets_bind_eq (lastOfMib_meets (by omega) positive)
  apply meets_bind_eq (nextMib_meets (by omega) spmPositive)
  simp only [end_succ positive]
  cases biosPart with
  | false =>
      refine meets_pure (Tiles.cons (disk.spm + mainMib * disk.spm) rfl (end_succ positive)
        (Nat.dvd_refl _) (by omega) ?_)
      exact Tiles.cons _ rfl (end_succ spmPositive) helperAligned (by omega) (by simp only [Geometry.Tiles]; omega)
  | true =>
      apply meets_bind_eq (nextMib_meets (by omega) spmPositive)
      simp only [end_succ spmPositive]
      refine meets_pure (Tiles.cons (disk.spm + mainMib * disk.spm) rfl (end_succ positive)
        (Nat.dvd_refl _) (by omega) ?_)
      refine Tiles.cons _ rfl (end_succ spmPositive) helperAligned (by omega) ?_
      exact Tiles.cons _ rfl (end_succ spmPositive) nextAligned (by omega) (by simp only [Geometry.Tiles]; omega)

theorem singleParts_meets (sound : disk.Sound secSz bytes)
    (large : biosPart = true → 64 ≤ disk.mib) :
    Meets 64 (disk.Tiles disk.spm) (singleParts disk isGpt biosPart mbrType) := by
  have tables := sound.tables
  have wide := sound.wide
  have lbas := sound.word
  unfold singleParts
  cases biosPart with
  | false =>
      have least := sound.least
      have last := sound.last
      apply meets_bind (openEnd_meets sound (by omega))
      intro endLba ⟨nonempty, inside⟩
      exact meets_pure (Tiles.cons _ rfl rfl (Nat.dvd_refl _) (by simp only; omega) inside)
  | true =>
      have large := large rfl
      obtain ⟨positive, mainAligned, room, word⟩ := mainMib_figures sound
        (show 3 < disk.mib by omega)
      have biosAligned := Nat.dvd_add (Nat.dvd_refl disk.spm) mainAligned
      apply meets_sub (by omega) (by omega)
      apply meets_bind_eq (lastOfMib_meets (by omega) positive)
      apply meets_bind_eq (nextMib_meets (by omega) (by omega))
      simp only [end_succ positive]
      refine meets_pure (Tiles.cons _ rfl (end_succ positive) (Nat.dvd_refl _) (by omega) ?_)
      exact Tiles.cons _ rfl (end_succ (by omega)) biosAligned (by omega) (by simp only [Geometry.Tiles]; omega)

theorem espMainParts_meets (sound : disk.Sound secSz bytes)
    (large : 515 + (if biosPart then 2 else 0) ≤ disk.mib) :
    Meets 64 (disk.Tiles disk.spm) (espMainParts disk isGpt biosPart mbrType) := by
  have tables := sound.tables
  have wide := sound.wide
  have lbas := sound.word
  have espPositive : 0 < 512 * disk.spm := by omega
  have mainAligned : disk.spm ∣ disk.spm + 512 * disk.spm :=
    Nat.dvd_add (Nat.dvd_refl _) (Nat.dvd_mul_left _ _)
  unfold espMainParts
  apply meets_bind_eq (lastOfMib_meets (by omega) espPositive)
  apply meets_add (by omega)
  simp only [end_succ espPositive]
  cases biosPart with
  | false =>
      have last := sound.last
      have room := sound.room
      have most := Nat.mul_le_mul_right disk.spm (show 515 ≤ disk.mib from large)
      apply meets_bind (openEnd_meets sound (by omega))
      intro endLba ⟨nonempty, inside⟩
      refine meets_pure (Tiles.cons _ rfl (end_succ espPositive) (Nat.dvd_refl _) (by omega) ?_)
      exact Tiles.cons _ rfl rfl mainAligned (by simp only; omega) inside
  | true =>
      have enough : 515 < disk.mib := Nat.lt_of_lt_of_le (by decide) large
      obtain ⟨positive, dataAligned, room, word⟩ := mainMib_figures sound enough
      have biosAligned := Nat.dvd_add mainAligned dataAligned
      apply meets_sub (by omega) (by omega)
      apply meets_bind_eq (lastOfMib_meets (by omega) positive)
      apply meets_bind_eq (nextMib_meets (by omega) (by omega))
      simp only [end_succ positive]
      refine meets_pure (Tiles.cons _ rfl (end_succ espPositive) (Nat.dvd_refl _) (by omega) ?_)
      refine Tiles.cons _ rfl (end_succ positive) mainAligned (by omega) ?_
      exact Tiles.cons _ rfl (end_succ (by omega)) biosAligned (by omega) (by simp only [Geometry.Tiles]; omega)

/-- What the last check leaves of a part: inside the usable range of a GPT, or with a start
and a length that a DOS entry can hold. -/
def Fits (disk : Geometry) (isGpt : Bool) (part : PartSpec) : Prop :=
  if isGpt then disk.firstUsableLba ≤ part.firstLba ∧ part.lastLba ≤ disk.lastUsableLba
  else part.firstLba < 2 ^ 32 ∧ part.lastLba - part.firstLba + 1 < 2 ^ 32

theorem checkPart_meets (dst : String) (index : Nat) {part : PartSpec}
    (word : part.lastLba < 2 ^ 56) :
    Meets 64 (fun _ => Fits disk isGpt part) (checkPart dst disk isGpt index part) := by
  unfold checkPart
  split
  · exact meets_fail
  · cases isGpt with
    | true =>
        rw [if_pos rfl]
        split
        · exact meets_fail
        · exact meets_pure (by simp only [Fits, if_true]; omega)
    | false =>
        rw [if_neg Bool.false_ne_true]
        apply meets_sub (by omega) (by omega)
        apply meets_add (by omega)
        split
        · exact meets_fail
        · exact meets_pure (by simp only [Fits, Bool.false_eq_true, if_false]; omega)

theorem checkParts_meets (dst : String) (index : Nat) {parts : List PartSpec}
    (word : ∀ part ∈ parts, part.lastLba < 2 ^ 56) :
    Meets 64 (fun _ => ∀ part ∈ parts, Fits disk isGpt part)
      (checkParts dst disk isGpt index parts) := by
  induction parts generalizing index with
  | nil => exact meets_pure (by simp)
  | cons head rest ih =>
      obtain ⟨headWord, restWord⟩ := List.forall_mem_cons.mp word
      apply meets_bind (checkPart_meets dst index headWord)
      intro _ headFits
      apply meets_mono (ih (index + 1) restWord)
      intro _ restFits
      exact List.forall_mem_cons.mpr ⟨headFits, restFits⟩

end Layouts

section Plans

theorem checkedRequest_meets (target : Target) (opts : PartOpts) :
    Meets 64 (fun request => request.isGpt = decide (opts.scheme = some "gpt") ∧
      (request.biosPart = true → request.isGpt = true) ∧ target.dst ≠ "" ∧
      (request.layout = "single" ∨ request.layout = "esp+main" ∨
        request.layout = "main+uefintfs")) (checkedRequest target opts) := by
  unfold checkedRequest
  split
  · rename_i rawScheme layout scheme _
    split
    · exact meets_fail
    rename_i named
    split
    · exact meets_fail
    split
    · exact meets_fail
    rename_i known
    split
    · exact meets_fail
    split
    · exact meets_fail
    refine meets_done ⟨?_, ?_, named, by simp only; tauto⟩
    · by_cases mbr : rawScheme = "mbr" <;> simp [scheme, mbr]
    · simp
  · exact meets_fail

theorem checkWindowsMib_meets (dst : String) (request : Request) (mib : Nat) :
    Meets 64 (fun _ => (request.layout = "main+uefintfs" → 64 ≤ mib) ∧
      (request.layout = "single" → request.biosPart = true → 64 ≤ mib))
      (checkWindowsMib dst request mib) := by
  unfold checkWindowsMib
  split
  · exact meets_fail
  · split
    · exact meets_fail
    · refine meets_done ⟨?_, ?_⟩
      · intro windows
        by_contra small
        simp_all
      · intro single bios
        by_contra small
        simp_all

theorem checkEspMib_meets (dst : String) (request : Request) (mib : Nat) :
    Meets 64 (fun _ => request.layout = "esp+main" →
      515 + (if request.biosPart then 2 else 0) ≤ mib) (checkEspMib dst request mib) := by
  unfold checkEspMib
  by_cases esp : request.layout = "esp+main"
  · rw [if_pos esp]
    apply meets_add (by split <;> omega)
    by_cases small : mib < 515 + (if request.biosPart then 2 else 0)
    · rw [if_pos small]
      exact meets_fail
    · rw [if_neg small]
      exact meets_pure (fun _ => Nat.le_of_not_lt small)
  · rw [if_neg esp]
    exact meets_pure (fun same => absurd same esp)

theorem layoutParts_meets {disk : Geometry} {secSz bytes : Nat} (sound : disk.Sound secSz bytes)
    (request : Request) (mbrType : UInt8)
    (known : request.layout = "single" ∨ request.layout = "esp+main" ∨
      request.layout = "main+uefintfs")
    (windows : request.layout = "main+uefintfs" → 64 ≤ disk.mib)
    (single : request.layout = "single" → request.biosPart = true → 64 ≤ disk.mib)
    (esp : request.layout = "esp+main" →
      515 + (if request.biosPart then 2 else 0) ≤ disk.mib) :
    Meets 64 (disk.Tiles disk.spm)
      (layoutParts disk request.layout request.isGpt request.biosPart mbrType) := by
  unfold layoutParts
  split
  · rename_i isWindows
    exact mainUefintfsParts_meets sound (windows isWindows)
  · split
    · rename_i isSingle
      exact singleParts_meets sound (single isSingle)
    · rename_i notWindows notSingle
      exact espMainParts_meets sound (esp (by tauto))

/-- Sectors aligned and inside the disk are bytes aligned and inside the disk. -/
theorem Geometry.Tiles.wellLaid {target : Target} {disk : Geometry} {parts : List PartSpec}
    {secSz : Nat} {isGpt : Bool} (size : secSz = target.sectorSize.toNat)
    (sound : disk.Sound secSz target.devBytes.toNat) (tiles : disk.Tiles disk.spm parts)
    (fits : ∀ part ∈ parts, Fits disk isGpt part) :
    Plan.WellLaid target (isGpt = true) { secSz, disk, parts } where
  nonempty part member := (tiles.each part member).2.2.1
  ascending := tiles.ascending
  aligned part member := by
    have sectors := (tiles.each part member).2.1
    rw [← size, ← sound.mebibyte]
    exact Nat.mod_eq_zero_of_dvd (Nat.mul_dvd_mul_right sectors secSz)
  inside part member := by
    have sectors := (tiles.each part member).2.2.2
    rw [← size]
    have whole := Nat.div_mul_le_self target.devBytes.toNat secSz
    rw [← sound.lbas] at whole
    exact Nat.le_trans (Nat.mul_le_mul_right secSz sectors) whole
  usable gpt part member table listed := by
    have inside := fits part member
    have last := sound.last
    have firstUsable := sound.firstUsable
    have lastUsable := sound.lastUsable
    rw [Fits, if_pos gpt] at inside
    simp only [Target.gptTables, ← size, ← sound.lbas, ← sound.entries, List.mem_cons, List.not_mem_nil, or_false] at listed
    rcases listed with rfl | rfl | rfl | rfl | rfl
    all_goals simp only
    all_goals omega
  dosFields dos part member := by
    have inside := fits part member
    rwa [Fits, if_neg dos] at inside

/-- What the table writers need of a part besides where it lies. -/
structure PartSpec.Describable (isGpt : Bool) (part : PartSpec) : Prop where
  guid : part.gptType.length = 16
  typed : ∃ byte ∈ part.gptType, byte ≠ 0
  attrs : part.gptAttrs < 2 ^ 64
  ordinary : part.mbrType ≠ 0xEE
  mbrTyped : isGpt = false → part.mbrType ≠ 0

theorem mbrTypeOf_ordinary (fsMain : Option String) :
    mbrTypeOf fsMain ≠ 0xEE ∧ mbrTypeOf fsMain ≠ 0 := by
  unfold mbrTypeOf
  repeat' split
  all_goals decide

def Describes (isGpt : Bool) (parts : List PartSpec) : Prop :=
  parts ≠ [] ∧ parts.length ≤ 3 ∧ ∀ part ∈ parts, part.Describable isGpt

/-- A part of one of the layouts: its type is one of theirs. -/
theorem PartSpec.Describable.ofLayout {isGpt : Bool} {part : PartSpec}
    (guid : part.gptType ∈ [guidMsBasicData, guidLinuxFs, guidEsp, guidBiosBoot])
    (attrs : part.gptAttrs = 0 ∨ part.gptAttrs = 2 ^ 63)
    (type : part.mbrType ≠ 0xEE ∧ part.mbrType ≠ 0 ∨ part.mbrType = 0 ∧ isGpt = true) :
    part.Describable isGpt where
  guid := by
    simp only [List.mem_cons, List.not_mem_nil, or_false] at guid
    rcases guid with same | same | same | same <;> rw [same] <;> rfl
  typed := by
    simp only [List.mem_cons, List.not_mem_nil, or_false] at guid
    rcases guid with same | same | same | same <;> rw [same] <;> decide
  attrs := by omega
  ordinary := by
    rcases type with ⟨ordinary, _⟩ | ⟨none, _⟩
    · exact ordinary
    · rw [none]
      rintro ⟨⟩
  mbrTyped := by
    rintro rfl
    rcases type with ⟨_, typed⟩ | ⟨_, gpt⟩
    · exact typed
    · cases gpt

section Described

variable (disk : Geometry) {isGpt biosPart : Bool} {mbrType : UInt8}
  (ordinary : mbrType ≠ 0xEE ∧ mbrType ≠ 0) (onlyGpt : biosPart = true → isGpt = true)

include ordinary onlyGpt

theorem mainUefintfsParts_describes :
    Yields 64 (Describes isGpt) (mainUefintfsParts disk biosPart mbrType) := by
  unfold mainUefintfsParts
  iterate 4
    apply yields_bind
    intro _
  split
  · rename_i has
    apply yields_bind
    intro _
    refine yields_pure ⟨nofun, by simp, ?_⟩
    simp only [List.forall_mem_cons]
    exact ⟨.ofLayout (by simp) (.inl rfl) (.inl ordinary),
      .ofLayout (by simp) (.inr rfl) (.inl ⟨nofun, nofun⟩),
      .ofLayout (by simp [biosBootPart]) (.inl rfl) (.inr ⟨rfl, onlyGpt has⟩), nofun⟩
  · refine yields_pure ⟨nofun, by simp, ?_⟩
    simp only [List.forall_mem_cons]
    exact ⟨.ofLayout (by simp) (.inl rfl) (.inl ordinary),
      .ofLayout (by simp) (.inr rfl) (.inl ⟨nofun, nofun⟩), nofun⟩

theorem singleParts_describes :
    Yields 64 (Describes isGpt) (singleParts disk isGpt biosPart mbrType) := by
  have known : (if mbrType = 0x83 then guidLinuxFs else guidMsBasicData) ∈
      [guidMsBasicData, guidLinuxFs, guidEsp, guidBiosBoot] := by
    split <;> simp
  simp only [singleParts]
  cases has : biosPart with
  | true =>
      iterate 3
        apply yields_bind
        intro _
      refine yields_pure ⟨nofun, by simp, ?_⟩
      simp only [List.forall_mem_cons]
      exact ⟨.ofLayout known (.inl rfl) (.inr ⟨rfl, onlyGpt has⟩),
        .ofLayout (by simp [biosBootPart]) (.inl rfl) (.inr ⟨rfl, onlyGpt has⟩), nofun⟩
  | false =>
      apply yields_bind
      intro _
      refine yields_pure ⟨nofun, by simp, ?_⟩
      simp only [List.forall_mem_cons]
      exact ⟨.ofLayout known (.inl rfl) (.inl ordinary), nofun⟩

theorem espMainParts_describes :
    Yields 64 (Describes isGpt) (espMainParts disk isGpt biosPart mbrType) := by
  unfold espMainParts
  iterate 2
    apply yields_bind
    intro _
  split
  · rename_i has
    iterate 3
      apply yields_bind
      intro _
    refine yields_pure ⟨nofun, by simp, ?_⟩
    simp only [List.forall_mem_cons]
    exact ⟨.ofLayout (by simp) (.inl rfl) (.inl ⟨nofun, nofun⟩),
      .ofLayout (by simp) (.inl rfl) (.inr ⟨rfl, onlyGpt has⟩),
      .ofLayout (by simp [biosBootPart]) (.inl rfl) (.inr ⟨rfl, onlyGpt has⟩), nofun⟩
  · apply yields_bind
    intro _
    refine yields_pure ⟨nofun, by simp, ?_⟩
    simp only [List.forall_mem_cons]
    exact ⟨.ofLayout (by simp) (.inl rfl) (.inl ⟨nofun, nofun⟩),
      .ofLayout (by simp) (.inl rfl) (.inl ordinary), nofun⟩

theorem layoutParts_describes (layout : String) :
    Yields 64 (Describes isGpt) (layoutParts disk layout isGpt biosPart mbrType) := by
  unfold layoutParts
  split
  · exact mainUefintfsParts_describes disk ordinary onlyGpt
  split
  · exact singleParts_describes disk ordinary onlyGpt
  · exact espMainParts_describes disk ordinary onlyGpt

end Described

/-- A plan that has passed every check. -/
structure Plan.Sound (target : Target) (isGpt : Bool) (plan : Plan) : Prop where
  size : plan.secSz = target.sectorSize.toNat
  sizes : plan.secSz = 512 ∨ plan.secSz = 1024 ∨ plan.secSz = 2048 ∨ plan.secSz = 4096
  disk : plan.disk.Sound plan.secSz target.devBytes.toNat
  tiles : plan.disk.Tiles plan.disk.spm plan.parts
  fits : ∀ part ∈ plan.parts, Fits plan.disk isGpt part
  describes : Describes isGpt plan.parts
  named : target.dst ≠ ""

theorem rufuxPartition_sound (target : Target) (opts : PartOpts) :
    Meets 64 (fun result => ∀ plan ∈ result, plan.Sound target (decide (opts.scheme = some "gpt")))
      (rufuxPartition target opts) := by
  unfold rufuxPartition
  apply meets_bind (checkedRequest_meets target opts)
  intro request ⟨gpt, onlyGpt, named, known⟩
  apply meets_bind (checkedSectorSize_meets target)
  intro secSz ⟨size, sizes⟩
  apply meets_bind (checkWindowsMib_meets target.dst request _)
  intro _ ⟨windows, single⟩
  split
  · exact meets_pure (by simp)
  · apply meets_bind (checkEspMib_meets target.dst request _)
    intro _ esp
    apply meets_bind (diskGeometry_meets target sizes)
    intro disk ⟨mib, sound⟩
    rw [← mib] at windows single esp
    apply meets_bind ((layoutParts_meets sound request _ known windows single esp).and
      (layoutParts_describes disk (mbrTypeOf_ordinary opts.fsMain) onlyGpt request.layout))
    intro parts ⟨tiles, describes⟩
    have word := sound.word
    apply meets_bind (checkParts_meets target.dst 1 fun part member =>
      Nat.lt_trans (tiles.each part member).2.2.2 word)
    intro _ fits
    refine meets_pure ?_
    intro plan member
    cases member
    rw [← gpt]
    exact ⟨size, sizes, sound, tiles, fits, describes, named⟩

theorem rufuxPartition_meets (target : Target) (opts : PartOpts) :
    Meets 64 (fun result => ∀ plan ∈ result, plan.WellLaid target (opts.scheme = some "gpt"))
      (rufuxPartition target opts) := by
  apply meets_mono (rufuxPartition_sound target opts)
  intro result sound plan member
  obtain ⟨size, _, disk, tiles, fits, _, _⟩ := sound plan member
  have laid := tiles.wellLaid size disk fits
  rwa [decide_eq_true_eq] at laid

/-- Whatever the disk and the options, the layout computation wraps nowhere, and a plan that
passes the checks is well laid. -/
theorem partition_layout (target : Target) (opts : PartOpts) :
    (rufuxPartition target opts).NoWrap 64 ∧
      ∀ plan, (rufuxPartition target opts).run 64 = .ok (some plan) →
        plan.WellLaid target (opts.scheme = some "gpt") := by
  have meets := rufuxPartition_meets target opts
  exact ⟨meets.1, fun plan ran => meets.2 (some plan) ran plan rfl⟩

/-- A 4 TiB disk with 512-byte sectors: a DOS partition is cut to what its entry can say. -/
def hugeDisk : Target := {
  dst := "/dev/disk4", checkTarget := none, devBytes := 4398046511104, sectorSize := 512 }

def dosSingle : PartOpts := {
  scheme := some "mbr", layout := some "single", fsMain := none, biosBoot := false,
  dryRun := false, yes := true }

theorem partition_layout_clamped :
    ∃ plan : Plan, plan.parts.map (fun part => (part.firstLba, part.lastLba)) =
        [(2048, 4294969342)] ∧
      plan.WellLaid hugeDisk (dosSingle.scheme = some "gpt") := by
  refine ⟨_, ?_, (partition_layout hugeDisk dosSingle).2 _ rfl⟩
  rfl

end Plans

end Rufux.Macos
