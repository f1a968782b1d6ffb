import Rufux.Macos.TableAreas

/-!
Reading back what the partitioning run wrote: every slice from the primary table, and
again from the backup once the primary is damaged.
-/

namespace Rufux.Macos

open Library ByteMap

section Tables

variable {target : Target} {opts : PartOpts} {run : PartRun} {device after : Device} {plan : Plan}

/-- One table of a written GPT on a disk, byte for byte: its header and its array. -/
structure TableOn (run : PartRun) (plan : Plan) (disk : Device) (hdrLba entriesLba : Nat)
    (hdr : ByteMap) : Prop where
  headerReach : disk.Reaches (hdrLba * plan.secSz) plan.secSz
  header : ∀ index, index < plan.secSz → disk.bytes (hdrLba * plan.secSz + index) = hdr index
  reach : disk.Reaches (entriesLba * plan.secSz) entryArrayBytes
  entries : ∀ index, index < entryArrayBytes →
    disk.bytes (entriesLba * plan.secSz + index) = gptEntries run.chance plan.parts index

def PrimaryOn (run : PartRun) (plan : Plan) (disk : Device) : Prop :=
  TableOn run plan disk 1 2 (primaryHeader run.chance plan)

def BackupOn (run : PartRun) (plan : Plan) (disk : Device) : Prop :=
  TableOn run plan disk plan.disk.lastLba (backupEntriesLba plan.disk) (backupHeader run.chance plan)

/-- A disk of that size with the same bytes in the table has the table too. -/
theorem TableOn.congr {disk other : Device} {hdrLba entriesLba : Nat} {hdr : ByteMap}
    (on : TableOn run plan disk hdrLba entriesLba hdr) (size : other.size = disk.size)
    (header : ∀ index, hdrLba * plan.secSz ≤ index → index < hdrLba * plan.secSz + plan.secSz →
      other.bytes index = disk.bytes index)
    (entries : ∀ index, entriesLba * plan.secSz ≤ index →
      index < entriesLba * plan.secSz + entryArrayBytes → other.bytes index = disk.bytes index) :
    TableOn run plan other hdrLba entriesLba hdr := by
  have reaches {off len : Nat} (reach : disk.Reaches off len) : other.Reaches off len := by
    rw [Device.Reaches, size]
    exact reach
  constructor
  · exact reaches on.headerReach
  · intro index bound
    rw [header _ (by omega) (by omega)]
    exact on.header index bound
  · exact reaches on.reach
  · intro index bound
    rw [entries _ (by omega) (by omega)]
    exact on.entries index bound

theorem Written.reach (written : Written target opts run device plan after) {step : TableWrite}
    (member : step ∈ tableWrites run (rufuxMacosBlockNode target.dst) opts.isGpt plan) :
    after.Reaches step.write.off step.write.len := by
  rw [Device.Reaches, written.size]
  exact written.reaches step member

theorem Written.mbrReach (written : Written target opts run device plan after) :
    after.Reaches 0 plan.secSz :=
  written.reach (List.mem_append_right _ List.mem_cons_self)

theorem Written.gptReach (written : Written target opts run device plan after)
    (gpt : opts.isGpt = true) {step : TableWrite}
    (member : step ∈ writeGpt run.chance (rufuxMacosBlockNode target.dst) plan) :
    after.Reaches step.write.off step.write.len := by
  apply written.reach
  rw [tableWrites, gpt]
  exact List.mem_append_right _ (List.mem_cons_of_mem _ member)

theorem Written.primaryOn (written : Written target opts run device plan after)
    (sound : plan.Sound target opts.isGpt) (gpt : opts.isGpt = true) :
    PrimaryOn run plan after := by
  obtain ⟨⟨least, most⟩, _, backup, last, tail, room, many, _⟩ := sound.figures
  have bytes := written.gpt gpt
  have array : entryArrayBytes = 16384 := rfl
  constructor
  · exact written.gptReach gpt List.mem_cons_self
  · intro index bound
    rw [bytes, place_outside (by omega), place_outside (by omega), place_outside (by omega),
      place_inside (by omega) (by omega), Nat.add_sub_cancel_left]
  · exact written.gptReach gpt (List.mem_cons_of_mem _ List.mem_cons_self)
  · intro index bound
    rw [bytes, place_outside (by omega), place_outside (by omega),
      place_inside (by omega) (by omega), Nat.add_sub_cancel_left]

theorem Written.backupOn (written : Written target opts run device plan after)
    (sound : plan.Sound target opts.isGpt) (gpt : opts.isGpt = true) :
    BackupOn run plan after := by
  obtain ⟨⟨least, most⟩, _, backup, last, tail, room, many, _⟩ := sound.figures
  have bytes := written.gpt gpt
  constructor
  · exact written.gptReach gpt (List.mem_cons_of_mem _ (List.mem_cons_of_mem _
      (List.mem_cons_of_mem _ List.mem_cons_self)))
  · intro index bound
    rw [bytes, place_inside (by omega) (by omega), Nat.add_sub_cancel_left]
  · exact written.gptReach gpt (List.mem_cons_of_mem _ (List.mem_cons_of_mem _ List.mem_cons_self))
  · intro index bound
    rw [bytes, place_outside (by omega), place_inside (by omega) (by omega),
      Nat.add_sub_cancel_left]

/-- The first sector of either scheme. -/
theorem Written.first (written : Written target opts run device plan after)
    (sound : plan.Sound target opts.isGpt) {index : Nat} (inside : index < plan.secSz) :
    after.bytes index = firstSector run opts.isGpt plan index := by
  obtain ⟨⟨least, most⟩, _, backup, last, tail, room, many, _⟩ := sound.figures
  have array : entryArrayBytes = 16384 := rfl
  cases scheme : opts.isGpt with
  | false =>
      rw [written.dos scheme, place_inside (Nat.zero_le _) (by omega), Nat.sub_zero]
  | true =>
      rw [written.gpt scheme, place_outside (by omega), place_outside (by omega),
        place_outside (by omega), place_outside (by omega),
        place_inside (Nat.zero_le _) (by omega), Nat.sub_zero]

end Tables

section Slices

variable {target : Target} {isGpt : Bool} {run : PartRun} {disk : Device} {plan : Plan}

/-- What a plan says of a slice: its start and its number of sectors. -/
def Plan.slice (plan : Plan) (slice : Nat) : Option (Nat × Nat) :=
  plan.parts[slice - 1]?.map fun part => (part.firstLba, part.count)

theorem Plan.Sound.lbas (sound : plan.Sound target isGpt) : ∀ part ∈ plan.parts,
    0 < part.firstLba ∧ part.firstLba ≤ part.lastLba ∧ part.lastLba < 256 ^ 8 := by
  intro part member
  obtain ⟨first, _, order, last⟩ := sound.tiles.each part member
  have tables := sound.disk.tables
  have word := sound.disk.word
  exact ⟨by omega, order, by omega⟩

theorem Plan.Sound.guids (sound : plan.Sound target isGpt) : ∀ part ∈ plan.parts,
    part.gptType.length = 16 ∧ ∃ byte ∈ part.gptType, byte ≠ 0 :=
  fun part member => ⟨(sound.describes.2.2 part member).guid, (sound.describes.2.2 part member).typed⟩

/-- Beyond the array there is no part either. -/
theorem Plan.Sound.slice_beyond (sound : plan.Sound target isGpt) {slice : Nat}
    (beyond : 3 < slice) : plan.slice slice = none := by
  have few := sound.describes.2.1
  rw [Plan.slice, List.getElem?_eq_none (by omega)]
  rfl

/-- The header and the entry array at a sector, where the reader accepts both for a slice. -/
def gptTableAt (device : Device) (secSz hdrLba slice : Nat) : Option (ByteMap × ByteMap) := do
  let hdr ← gptHeaderAt device secSz hdrLba
  let ents ← gptEntriesOf device secSz hdr slice
  return (hdr, ents)

theorem parse_eq_tableAt (device : Device) (secSz hdrLba slice : Nat) :
    parseGptSliceAtHdr device secSz hdrLba slice =
      (gptTableAt device secSz hdrLba slice).bind fun table => gptSlice table.1 table.2 slice := by
  rw [parseGptSliceAtHdr, gptTableAt]
  cases gptHeaderAt device secSz hdrLba with
  | none => rfl
  | some hdr =>
      rw [Option.bind_eq_bind, Option.bind_some, Option.bind_eq_bind, Option.bind_some]
      cases gptEntriesOf device secSz hdr slice <;> rfl

section OneTable

variable {hdr : ByteMap} {hdrLba myLba otherLba entriesLba slice : Nat}
  (sound : plan.Sound target isGpt) (on : TableOn run plan disk hdrLba entriesLba hdr)
  (fields : HeaderFields hdr myLba otherLba entriesLba (entriesChecksum run.chance plan.parts))
  (sealed : ChecksumHolds hdr) (later : 2 ≤ entriesLba)

include sound on fields sealed later

/-- A table in the writer's format is one that the reader takes, checksums and all. -/
theorem TableOn.accepted (inside : slice ≤ 128) :
    ∃ found ents, gptTableAt disk plan.secSz hdrLba slice = some (found, ents) ∧
      ChecksumHolds found ∧
      HeaderFields found myLba otherLba entriesLba (entriesChecksum run.chance plan.parts) ∧
      ∀ index, index < entryArrayBytes → ents index = gptEntries run.chance plan.parts index := by
  have least := sound.figures.sector.1
  obtain ⟨found, accepted, readSealed, readFields⟩ :=
    gptHeaderAt_accepts (by omega) on.headerReach on.header fields sealed
  have array : gptEntriesOf disk plan.secSz found slice = if slice ≤ 128 then
      some fun index => disk.bytes (entriesLba * plan.secSz + index) else none :=
    gptEntriesOf_accepts sound.sizes readFields later on.reach on.entries
  rw [if_pos inside] at array
  refine ⟨found, _, ?_, readSealed, readFields, on.entries⟩
  rw [gptTableAt, accepted, Option.bind_eq_bind, Option.bind_some, array]
  rfl

theorem TableOn.beyond (outside : 128 < slice) :
    gptTableAt disk plan.secSz hdrLba slice = none := by
  have least := sound.figures.sector.1
  obtain ⟨found, accepted, readSealed, readFields⟩ :=
    gptHeaderAt_accepts (by omega) on.headerReach on.header fields sealed
  have array : gptEntriesOf disk plan.secSz found slice = if slice ≤ 128 then
      some fun index => disk.bytes (entriesLba * plan.secSz + index) else none :=
    gptEntriesOf_accepts sound.sizes readFields later on.reach on.entries
  rw [if_neg (by omega)] at array
  rw [gptTableAt, accepted, Option.bind_eq_bind, Option.bind_some, array]
  rfl

/-- It gives the plan's slices, whichever of the two tables it is. -/
theorem TableOn.parse (positive : 0 < slice) :
    parseGptSliceAtHdr disk plan.secSz hdrLba slice = plan.slice slice := by
  rw [parse_eq_tableAt]
  by_cases inside : slice ≤ 128
  · obtain ⟨found, ents, accepted, _, readFields, entries⟩ :=
      TableOn.accepted sound on fields sealed later inside
    rw [accepted]
    exact gptSlice_written readFields sound.guids sound.lbas entries positive inside
  · rw [TableOn.beyond sound on fields sealed later (by omega), sound.slice_beyond (by omega)]
    rfl

end OneTable

theorem Plan.Sound.headers (sound : plan.Sound target isGpt) :
    plan.disk.lastLba < 2 ^ 64 ∧ 2 ≤ backupEntriesLba plan.disk := by
  have word := sound.disk.word
  have last := sound.disk.last
  have least := sound.disk.least
  have tables := sound.disk.tables
  rw [backupEntriesLba]
  omega

theorem PrimaryOn.parse (on : PrimaryOn run plan disk) (sound : plan.Sound target isGpt)
    {slice : Nat} (positive : 0 < slice) :
    parseGptSliceAtHdr disk plan.secSz 1 slice = plan.slice slice :=
  TableOn.parse sound on (primaryHeader_fields sound.headers.1) primaryHeader_sealed
    (Nat.le_refl 2) positive

theorem BackupOn.parse (on : BackupOn run plan disk) (sound : plan.Sound target isGpt)
    {slice : Nat} (positive : 0 < slice) :
    parseGptSliceAtHdr disk plan.secSz plan.disk.lastLba slice = plan.slice slice :=
  TableOn.parse sound on (backupHeader_fields sound.headers.1) backupHeader_sealed
    sound.headers.2 positive

end Slices

section Offsets

variable {target : Target} {opts : PartOpts} {run : PartRun} {disk : Device} {plan : Plan}
  {slice : Int}

/-- The checks in front of either table pass on a disk whose first sector was written. -/
theorem offset_checks (sound : plan.Sound target opts.isGpt) (positive : 1 ≤ slice) :
    ¬ (target.dst = "" ∨ slice < 1 ∨ target.sectorSize.toNat < 512 ∨
      4096 < target.sectorSize.toNat) := by
  have sector := sound.figures.sector
  rw [sound.size] at sector
  rintro (unnamed | below | small | large)
  · exact sound.named unnamed
  all_goals omega

theorem offset_below (below : slice < 1) : rufuxPartOffsetSectors target (some disk) slice = none :=
  if_pos (.inr (.inl below))

theorem offset_signature {isGpt : Bool}
    (first : ∀ index, 440 ≤ index → index < 512 →
      disk.bytes index = firstSector run isGpt plan index) :
    ¬ (disk.bytes (0 + 510) ≠ 0x55 ∨ disk.bytes (0 + 511) ≠ 0xAA) := by
  obtain ⟨low, high⟩ := firstSector_signature run plan isGpt
  rw [first _ (by omega) (by omega), first _ (by omega) (by omega)]
  simp [low, high]

/-- On a GPT disk the backup answers where the primary does not. -/
theorem offset_gpt (sound : plan.Sound target opts.isGpt) (positive : 1 ≤ slice)
    (reach : disk.Reaches 0 plan.secSz)
    (first : ∀ index, 440 ≤ index → index < 512 →
      disk.bytes index = firstSector run true plan index) :
    rufuxPartOffsetSectors target (some disk) slice =
      (parseGptSliceAtHdr disk plan.secSz 1 slice.toNat).or
        (parseGptSliceAtHdr disk plan.secSz plan.disk.lastLba slice.toNat) := by
  have lbas := sound.disk.lbas
  have last := sound.disk.last
  have many := sound.figures.many
  have read : disk.pread 0 plan.secSz = some fun index => disk.bytes (0 + index) := if_pos reach
  have protective : hasProtective (fun index => disk.bytes (0 + index)) = true := by
    rw [hasProtective, List.any_eq_true]
    refine ⟨0, by decide, ?_⟩
    have type : disk.bytes (0 + (446 + 0 * 16 + 4)) = 0xEE := by
      rw [first _ (by omega) (by omega)]
      exact firstSector_protective
    exact decide_eq_true type
  have second : target.devBytes.toNat / plan.secSz - 1 = plan.disk.lastLba := by omega
  rw [rufuxPartOffsetSectors]
  dsimp only
  rw [if_neg (offset_checks sound positive), ← sound.size, Option.bind_eq_bind, Option.bind_some,
    read, Option.bind_eq_bind, Option.bind_some, if_neg (offset_signature first), if_pos protective,
    if_pos (by omega), second]
  cases parseGptSliceAtHdr disk plan.secSz 1 slice.toNat <;> rfl

theorem Fits.dos {part : PartSpec} {geometry : Geometry} (fits : Fits geometry false part) :
    part.firstLba < 256 ^ 4 ∧ part.count < 256 ^ 4 := by
  simp only [Fits, Bool.false_eq_true, if_false] at fits
  rw [PartSpec.count]
  exact fits

/-- A first sector whose four entries are the plan's parts. -/
structure ListedIn (plan : Plan) (mbr : ByteMap) : Prop where
  listed : ∀ place part, place < 4 → plan.parts[place]? = some part →
    mbr (446 + place * 16 + 4) = part.mbrType ∧ part.mbrType ≠ 0 ∧ part.mbrType ≠ 0xEE ∧
      mbr.le (446 + place * 16 + 8) 4 = part.firstLba ∧
      mbr.le (446 + place * 16 + 12) 4 = part.count
  unlisted : ∀ place, place < 4 → plan.parts[place]? = none → mbr (446 + place * 16 + 4) = 0

theorem listedIn_written {mbr : ByteMap} (sound : plan.Sound target opts.isGpt)
    (dos : opts.isGpt = false)
    (first : ∀ index, 440 ≤ index → index < 512 → mbr index = firstSector run false plan index) :
    ListedIn plan mbr where
  listed := by
    intro place part slot found
    have member := List.mem_of_getElem? found
    have described := sound.describes.2.2 part member
    have fits := sound.fits part member
    rw [dos] at described fits
    obtain ⟨type, start, count⟩ := firstSector_listed run slot found fits.dos.1 fits.dos.2
    have field (off width : Nat) (within : off + width ≤ 16) :
        mbr.le (446 + place * 16 + off) width =
          (firstSector run false plan).le (446 + place * 16 + off) width :=
      le_congr fun index bound => first _ (by omega) (by omega)
    rw [first _ (by omega) (by omega), field 8 4 (by omega), field 12 4 (by omega)]
    exact ⟨type, described.mbrTyped rfl, described.ordinary, start, count⟩
  unlisted := by
    intro place slot found
    rw [first _ (by omega) (by omega)]
    exact firstSector_unlisted run slot (List.getElem?_eq_none_iff.mp found)

theorem ListedIn.ordinary {mbr : ByteMap} (on : ListedIn plan mbr) {place : Nat}
    (slot : place < 4) : mbr (446 + place * 16 + 4) ≠ 0xEE := by
  cases found : plan.parts[place]? with
  | some part =>
      obtain ⟨type, _, ordinary, _⟩ := on.listed place part slot found
      rw [type]
      exact ordinary
  | none =>
      rw [on.unlisted place slot found]
      decide

/-- On a DOS disk the first sector answers. -/
theorem offset_dos (sound : plan.Sound target opts.isGpt) (dos : opts.isGpt = false)
    (positive : 1 ≤ slice) (reach : disk.Reaches 0 plan.secSz)
    (first : ∀ index, 440 ≤ index → index < 512 →
      disk.bytes index = firstSector run false plan index) :
    rufuxPartOffsetSectors target (some disk) slice = plan.slice slice.toNat := by
  have read : disk.pread 0 plan.secSz = some fun index => disk.bytes (0 + index) := if_pos reach
  have on : ListedIn plan fun index => disk.bytes (0 + index) := by
    apply listedIn_written sound dos
    intro index lower upper
    rw [Nat.zero_add]
    exact first index lower upper
  have ordinary : hasProtective (fun index => disk.bytes (0 + index)) = false := by
    rw [hasProtective, List.any_eq_false]
    intro place member
    simpa using on.ordinary (List.mem_range.mp member)
  rw [rufuxPartOffsetSectors]
  dsimp only
  rw [if_neg (offset_checks sound positive), ← sound.size, Option.bind_eq_bind, Option.bind_some,
    read, Option.bind_eq_bind, Option.bind_some, if_neg (offset_signature first), ordinary,
    if_neg Bool.false_ne_true]
  obtain ⟨place, rfl⟩ : ∃ place : Nat, slice = place + 1 := ⟨(slice - 1).toNat, by omega⟩
  have number : ((place : Int) + 1).toNat = place + 1 := by omega
  rw [number]
  by_cases inside : place < 4
  · rw [if_pos (by omega), mbrSlice, Plan.slice, Nat.add_sub_cancel]
    cases found : plan.parts[place]? with
    | some part =>
        obtain ⟨type, typed, _, start, count⟩ := on.listed place part inside found
        have positive := (sound.lbas part (List.mem_of_getElem? found)).1
        rw [type, start, count, if_pos ⟨typed, positive, Nat.succ_pos _⟩]
        rfl
    | none =>
        rw [on.unlisted place inside found, if_neg (by simp)]
        rfl
  · have few := sound.describes.2.1
    rw [if_neg (by omega), sound.slice_beyond (by omega)]

end Offsets

section Claims

variable {target : Target} {opts : PartOpts} {run : PartRun} {device after damaged : Device}
  {plan : Plan}

/-- Both tables of a GPT disk verify, each header names its own sector and the other's, and
the arrays are the same byte for byte. -/
def TablesMirrored (device : Device) (secSz lastLba : Nat) : Prop :=
  ∃ primary entries backup copy,
    gptTableAt device secSz 1 1 = some (primary, entries) ∧
    gptTableAt device secSz lastLba 1 = some (backup, copy) ∧
    ChecksumHolds primary ∧ ChecksumHolds backup ∧
    primary.le 24 8 = 1 ∧ primary.le 32 8 = lastLba ∧
    backup.le 24 8 = lastLba ∧ backup.le 32 8 = 1 ∧
    primary.le 80 4 * primary.le 84 4 = entryArrayBytes ∧
    backup.le 80 4 * backup.le 84 4 = entryArrayBytes ∧
    crc32Ieee (entries.get 0 entryArrayBytes) = primary.le 88 4 ∧
    crc32Ieee (copy.get 0 entryArrayBytes) = backup.le 88 4 ∧
    ∀ index, index < entryArrayBytes → entries index = copy index

theorem tables_mirrored {isGpt : Bool} (sound : plan.Sound target isGpt)
    (front : PrimaryOn run plan after) (back : BackupOn run plan after) :
    TablesMirrored after plan.secSz plan.disk.lastLba := by
  obtain ⟨primary, entries, primaryAt, primarySealed, fields, same⟩ :=
    TableOn.accepted sound front (primaryHeader_fields sound.headers.1) primaryHeader_sealed
      (Nat.le_refl 2) (show 1 ≤ 128 by omega)
  obtain ⟨backup, copy, backupAt, backupSealed, mirrored, equal⟩ :=
    TableOn.accepted sound back (backupHeader_fields sound.headers.1) backupHeader_sealed
      sound.headers.2 (show 1 ≤ 128 by omega)
  have checksum {ents : ByteMap}
      (written : ∀ index, index < entryArrayBytes →
        ents index = gptEntries run.chance plan.parts index) :
      crc32Ieee (ents.get 0 entryArrayBytes) = entriesChecksum run.chance plan.parts := by
    have array : ents.get 0 entryArrayBytes =
        (gptEntries run.chance plan.parts).get 0 entryArrayBytes := by
      apply get_congr
      intro index bound
      rw [Nat.zero_add]
      exact written index bound
    rw [array, entriesChecksum]
  refine ⟨primary, entries, backup, copy, primaryAt, backupAt, primarySealed, backupSealed,
    fields.my, fields.other, mirrored.my, mirrored.other, ?_, ?_, ?_, ?_, ?_⟩
  · rw [fields.count, fields.width, entryArrayBytes]
  · rw [mirrored.count, mirrored.width, entryArrayBytes]
  · rw [checksum same, fields.checksum]
  · rw [checksum equal, mirrored.checksum]
  · intro index bound
    rw [same index bound, equal index bound]

/-- A disk that still has what partitioning wrote in its tables, whatever else has changed:
the disk signature and the table in the first sector, and on a GPT disk the headers and the
arrays. -/
structure TablesKept (opts : PartOpts) (plan : Plan) (after disk : Device) : Prop where
  size : disk.size = after.size
  label : ∀ index, 440 ≤ index → index < 512 → disk.bytes index = after.bytes index
  primary : opts.isGpt = true → ∀ index, plan.secSz ≤ index →
    index < 2 * plan.secSz + entryArrayBytes → disk.bytes index = after.bytes index
  backup : opts.isGpt = true → ∀ index, backupEntriesLba plan.disk * plan.secSz ≤ index →
    index < plan.disk.totalLbas * plan.secSz → disk.bytes index = after.bytes index

theorem TablesKept.refl (opts : PartOpts) (plan : Plan) (after : Device) :
    TablesKept opts plan after after :=
  ⟨rfl, fun _ _ _ => rfl, fun _ _ _ _ => rfl, fun _ _ _ _ => rfl⟩

section Kept

variable {disk : Device} (kept : TablesKept opts plan after disk)
  (written : Written target opts run device plan after) (sound : plan.Sound target opts.isGpt)

include kept written sound

theorem TablesKept.first : ∀ index, 440 ≤ index → index < 512 →
    disk.bytes index = firstSector run opts.isGpt plan index := by
  intro index lower upper
  have sector := sound.figures.sector.1
  rw [kept.label index lower upper, written.first sound (by omega)]

theorem TablesKept.primaryOn (gpt : opts.isGpt = true) : PrimaryOn run plan disk := by
  apply TableOn.congr (written.primaryOn sound gpt) kept.size
  · intro index lower upper
    exact kept.primary gpt index (by omega) (by omega)
  · intro index lower upper
    exact kept.primary gpt index (by omega) (by omega)

theorem TablesKept.backupOn (gpt : opts.isGpt = true) : BackupOn run plan disk := by
  have figures := sound.figures
  have array := figures.backup
  have last := figures.last
  apply TableOn.congr (written.backupOn sound gpt) kept.size
  · intro index lower upper
    exact kept.backup gpt index (by omega) (by omega)
  · intro index lower upper
    exact kept.backup gpt index (by omega) (by omega)

omit sound in
theorem TablesKept.mbrReach : disk.Reaches 0 plan.secSz := by
  rw [Device.Reaches, kept.size]
  exact written.mbrReach

/-- Such a disk still answers as it was laid out. -/
theorem TablesKept.answers (slice : Int) :
    rufuxPartOffsetSectors target (some disk) slice =
      if slice < 1 then none else plan.slice slice.toNat := by
  by_cases below : slice < 1
  · rw [if_pos below, offset_below below]
  · have positive : 1 ≤ slice := by omega
    have first := TablesKept.first kept written sound
    have reach := TablesKept.mbrReach kept written
    rw [if_neg below]
    cases scheme : opts.isGpt with
    | false =>
        rw [scheme] at first
        exact offset_dos sound scheme positive reach first
    | true =>
        rw [scheme] at first
        rw [offset_gpt sound positive reach first,
          (TablesKept.primaryOn kept written sound scheme).parse sound (by omega),
          (TablesKept.backupOn kept written sound scheme).parse sound (by omega), Option.or_self]

end Kept

/-- Reading back a partitioned disk gives every slice as it was laid out, and no other; and
the two tables of a GPT mirror one another. -/
theorem partition_round_trip (planned : Planned target opts plan)
    (done : rufuxPartitionOn target opts run device = (.ok (), after)) :
    (∀ slice : Int, rufuxPartOffsetSectors target (some after) slice =
        if slice < 1 then none else plan.slice slice.toNat) ∧
      (opts.scheme = some "gpt" → TablesMirrored after plan.secSz plan.disk.lastLba) := by
  have sound := planned.sound
  have written := planned.written done
  constructor
  · exact (TablesKept.refl opts plan after).answers written sound
  · intro scheme
    have gpt : opts.isGpt = true := decide_eq_true scheme
    exact tables_mirrored sound (written.primaryOn sound gpt) (written.backupOn sound gpt)

/-- A GPT for Windows on the small disk: the data partition and the helper after it. -/
def gptWindows : PartOpts := {
  scheme := some "gpt", layout := some "main+uefintfs", fsMain := some "ntfs", biosBoot := false,
  dryRun := false, yes := true }

theorem gptWindows_done : ∃ after,
    rufuxPartitionOn smallDisk gptWindows plainRun blankDevice = (.ok (), after) :=
  Planned.succeeds rfl rfl (fun _ => rfl) rfl (Nat.le_refl _) (by decide)

theorem partition_round_trip_small :
    ∃ after, rufuxPartitionOn smallDisk gptWindows plainRun blankDevice = (.ok (), after) ∧
      rufuxPartOffsetSectors smallDisk (some after) 1 = some (2048, 124928) ∧
      rufuxPartOffsetSectors smallDisk (some after) 2 = some (126976, 2048) ∧
      rufuxPartOffsetSectors smallDisk (some after) 3 = none := by
  obtain ⟨after, done⟩ := gptWindows_done
  have planned : Planned smallDisk gptWindows _ := rfl
  have read := (partition_round_trip planned done).1
  exact ⟨after, done, read 1, read 2, read 3⟩

/-- Where the reader's checks reject the primary table of a damaged disk, the backup gives the
answer of the undamaged disk, for a slice as for its absence. -/
theorem backup_fallback (planned : Planned target opts plan) (gpt : opts.scheme = some "gpt")
    (done : rufuxPartitionOn target opts run device = (.ok (), after))
    (size : damaged.size = after.size)
    (intact : ∀ index, index < plan.secSz ∨ backupEntriesLba plan.disk * plan.secSz ≤ index →
      damaged.bytes index = after.bytes index)
    (slice : Int) (detected : gptTableAt damaged plan.secSz 1 slice.toNat = none) :
    rufuxPartOffsetSectors target (some damaged) slice =
      rufuxPartOffsetSectors target (some after) slice := by
  have sound := planned.sound
  have written := planned.written done
  have scheme : opts.isGpt = true := decide_eq_true gpt
  have figures := sound.figures
  by_cases below : slice < 1
  · rw [offset_below below, offset_below below]
  have positive : 1 ≤ slice := by omega
  have reach : damaged.Reaches 0 plan.secSz := by
    rw [Device.Reaches, size]
    exact written.mbrReach
  have first : ∀ index, 440 ≤ index → index < 512 →
      damaged.bytes index = firstSector run true plan index := by
    intro index lower upper
    have sector := figures.sector.1
    rw [intact index (.inl (by omega)), written.first sound (by omega), scheme]
  have backup : BackupOn run plan damaged := by
    have array := figures.backup
    apply TableOn.congr (written.backupOn sound scheme) size
    · intro index lower _
      exact intact index (.inr (by omega))
    · intro index lower _
      exact intact index (.inr lower)
  have rejected : parseGptSliceAtHdr damaged plan.secSz 1 slice.toNat = none := by
    rw [parse_eq_tableAt, detected]
    rfl
  rw [offset_gpt sound positive reach first, rejected, Option.none_or,
    backup.parse sound (by omega),
    (TablesKept.refl opts plan after).answers written sound slice, if_neg below]

/-- The first byte of the primary's signature is lost. -/
def scratched (disk : Device) : Device :=
  { disk with bytes := fun index => if index = 512 then 0 else disk.bytes index }

theorem backup_fallback_small :
    ∃ after, rufuxPartitionOn smallDisk gptWindows plainRun blankDevice = (.ok (), after) ∧
      ∀ slice, rufuxPartOffsetSectors smallDisk (some (scratched after)) slice =
        rufuxPartOffsetSectors smallDisk (some after) slice := by
  obtain ⟨after, done⟩ := gptWindows_done
  have planned : Planned smallDisk gptWindows _ := rfl
  have size : (scratched after).size = after.size := rfl
  refine ⟨after, done, fun slice => backup_fallback planned rfl done size ?_ slice ?_⟩
  · rintro index (first | backup)
    · exact if_neg (Nat.ne_of_lt first)
    · exact if_neg (Nat.ne_of_gt (Nat.lt_of_lt_of_le (by decide) backup))
  · rw [gptTableAt, gptHeaderAt_blank rfl]
    rfl

end Claims

end Rufux.Macos
