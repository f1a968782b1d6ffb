import Rufux.Macos.Gpt

/-!
`rufux_part_offset_sectors`, and what it makes of a header and an entry array as the writer
encodes them.
-/

namespace Rufux.Macos

open Library ByteMap

/-- The header at a sector, where `parse_gpt_slice_at_hdr` accepts it. -/
def gptHeaderAt (device : Device) (secSz hdrLba : Nat) : Option ByteMap := do
  let hdr ← device.pread (hdrLba * secSz % 2 ^ 64) secSz
  let hdrSz := hdr.le 12 4
  if hdr.get 0 8 ≠ efiPart then none
  else if hdrSz < 92 ∨ secSz < hdrSz then none
  else if crc32Ieee ((hdr.place 16 zeros 4).get 0 hdrSz) ≠ hdr.le 16 4 then none
  else some hdr

/-- The entry array that a header names, where it is accepted for a slice. -/
def gptEntriesOf (device : Device) (secSz : Nat) (hdr : ByteMap) (slice : Nat) : Option ByteMap :=
  let entLba := hdr.le 72 8
  let numEnts := hdr.le 80 4
  let entSz := hdr.le 84 4
  let rawBytes := numEnts * entSz
  if entLba < 2 ∨ numEnts = 0 ∨ 4096 < numEnts ∨ entSz < 128 ∨ 4096 < entSz ∨
      numEnts < slice then none
  else if 2 ^ 20 < rawBytes then none
  else do
    let ents ← device.pread (entLba * secSz % 2 ^ 64) ((rawBytes + secSz - 1) / secSz * secSz)
    if crc32Ieee (ents.get 0 rawBytes) ≠ hdr.le 88 4 then none else some ents

/-- Start and count of a slice in an accepted array. -/
def gptSlice (hdr ents : ByteMap) (slice : Nat) : Option (Nat × Nat) :=
  let entry := (slice - 1) * hdr.le 84 4
  let first := ents.le (entry + 32) 8
  let last := ents.le (entry + 40) 8
  if (∀ byte ∈ ents.get entry 16, byte = 0) ∨ first = 0 ∨ last < first then none
  else some (first, last - first + 1)

def parseGptSliceAtHdr (device : Device) (secSz hdrLba slice : Nat) : Option (Nat × Nat) := do
  let hdr ← gptHeaderAt device secSz hdrLba
  let ents ← gptEntriesOf device secSz hdr slice
  gptSlice hdr ents slice

def hasProtective (mbr : ByteMap) : Bool :=
  (List.range 4).any fun index => mbr (446 + index * 16 + 4) = 0xEE

def mbrSlice (mbr : ByteMap) (slice : Nat) : Option (Nat × Nat) :=
  let entry := 446 + (slice - 1) * 16
  let start := mbr.le (entry + 8) 4
  let count := mbr.le (entry + 12) 4
  if mbr (entry + 4) ≠ 0 ∧ 0 < start ∧ 0 < count then some (start, count) else none

/-- `rufux_part_offset_sectors`; `opened` is the device if it could be opened. -/
def rufuxPartOffsetSectors (target : Target) (opened : Option Device) (slice : Int) :
    Option (Nat × Nat) :=
  let secSz := target.sectorSize.toNat
  if target.dst = "" ∨ slice < 1 ∨ secSz < 512 ∨ 4096 < secSz then none
  else do
    let device ← opened
    let mbr ← device.pread 0 secSz
    if mbr 510 ≠ 0x55 ∨ mbr 511 ≠ 0xAA then none
    else if hasProtective mbr then
      match parseGptSliceAtHdr device secSz 1 slice.toNat with
      | some found => some found
      | none =>
          let totalLbas := target.devBytes.toNat / secSz
          if 4 < totalLbas then parseGptSliceAtHdr device secSz (totalLbas - 1) slice.toNat
          else none
    else if slice ≤ 4 then mbrSlice mbr slice.toNat
    else none

section Headers

/-- What the writer's headers say besides their own checksum. -/
structure HeaderFields (hdr : ByteMap) (myLba otherLba entriesLba entriesCrc : Nat) : Prop where
  signature : hdr.get 0 8 = efiPart
  size : hdr.le 12 4 = 92
  my : hdr.le 24 8 = myLba
  other : hdr.le 32 8 = otherLba
  entries : hdr.le 72 8 = entriesLba
  count : hdr.le 80 4 = 128
  width : hdr.le 84 4 = 128
  checksum : hdr.le 88 4 = entriesCrc

variable {hdr other : ByteMap} {myLba otherLba entriesLba entriesCrc : Nat}

theorem HeaderFields.congr (fields : HeaderFields hdr myLba otherLba entriesLba entriesCrc)
    (same : ∀ index, index < 92 → (index < 16 ∨ 20 ≤ index) → other index = hdr index) :
    HeaderFields other myLba otherLba entriesLba entriesCrc := by
  have field (off width : Nat) (inside : off + width ≤ 92) (apart : off + width ≤ 16 ∨ 20 ≤ off) :
      other.le off width = hdr.le off width :=
    le_congr fun index bound => same _ (by omega) (by omega)
  have signature : other.get 0 8 = hdr.get 0 8 :=
    get_congr fun index bound => same _ (by omega) (by omega)
  constructor
  · exact signature.trans fields.signature
  · exact (field 12 4 (by omega) (by omega)).trans fields.size
  · exact (field 24 8 (by omega) (by omega)).trans fields.my
  · exact (field 32 8 (by omega) (by omega)).trans fields.other
  · exact (field 72 8 (by omega) (by omega)).trans fields.entries
  · exact (field 80 4 (by omega) (by omega)).trans fields.count
  · exact (field 84 4 (by omega) (by omega)).trans fields.width
  · exact (field 88 4 (by omega) (by omega)).trans fields.checksum

/-- The checksum of the first 92 bytes, taken with its own field blank, stands in that field. -/
def ChecksumHolds (hdr : ByteMap) : Prop :=
  crc32Ieee ((hdr.place 16 zeros 4).get 0 92) = hdr.le 16 4

theorem ChecksumHolds.congr (holds : ChecksumHolds hdr)
    (same : ∀ index, index < 92 → other index = hdr index) : ChecksumHolds other := by
  have blanked : (other.place 16 zeros 4).get 0 92 = (hdr.place 16 zeros 4).get 0 92 := by
    apply get_congr
    intro index bound
    simp only [place, same _ (show 0 + index < 92 by omega)]
  have stored : other.le 16 4 = hdr.le 16 4 := le_congr fun index bound => same _ (by omega)
  rw [ChecksumHolds, blanked, stored]
  exact holds

/-- A header whose own checksum is still blank, sealed: everything else stays. -/
theorem sealHeader_outside {index : Nat} (outside : index < 16 ∨ 20 ≤ index) :
    sealHeader hdr index = hdr index :=
  put_outside (by rw [length_leBytes]; omega)

theorem sealHeader_sealed (blank : ∀ index, 16 ≤ index → index < 20 → hdr index = 0) :
    ChecksumHolds (sealHeader hdr) := by
  have cleared : ((sealHeader hdr).place 16 zeros 4).get 0 92 = hdr.get 0 92 := by
    apply get_congr
    intro index bound
    by_cases checksum : 16 ≤ 0 + index ∧ 0 + index < 16 + 4
    · rw [place_inside checksum.1 checksum.2, blank _ checksum.1 checksum.2]
      rfl
    · rw [place_outside (by omega), sealHeader_outside (by omega)]
  rw [ChecksumHolds, cleared, sealHeader, le_put (crc32Ieee_lt _)]

theorem rawHeader_fields (chance : Chance) (disk : Geometry) (my : myLba < 2 ^ 64)
    (alternate : otherLba < 2 ^ 64) (entries : entriesLba < 2 ^ 64)
    (checksum : entriesCrc < 256 ^ 4) :
    HeaderFields (rawHeader chance disk entriesCrc myLba otherLba entriesLba) myLba otherLba
      entriesLba entriesCrc := by
  have wide : (2 : Nat) ^ 64 = 256 ^ 8 := rfl
  rw [wide] at my alternate entries
  constructor
  · simp (disch := simp [efiPart]) only [rawHeader, get_put_outside, get_put_of_length]
  all_goals simp (disch := first | assumption | simp) only [rawHeader, le_put_outside, le_put]

theorem rawHeader_blank (chance : Chance) (disk : Geometry) {index : Nat} (lower : 16 ≤ index)
    (upper : index < 20) :
    rawHeader chance disk entriesCrc myLba otherLba entriesLba index = 0 := by
  have signature : 0 + efiPart.length ≤ index := Nat.le_trans (by decide) lower
  have version : 12 + (leBytes 4 92).length ≤ index := lower
  have revision : 8 + (leBytes 4 0x00010000).length ≤ index := Nat.le_trans (by decide) lower
  simp (disch := omega) only [rawHeader, put_outside]
  rfl

theorem sealHeader_fields (fields : HeaderFields hdr myLba otherLba entriesLba entriesCrc) :
    HeaderFields (sealHeader hdr) myLba otherLba entriesLba entriesCrc :=
  fields.congr fun _ _ apart => sealHeader_outside apart

variable {chance : Chance} {plan : Plan}

def entriesChecksum (chance : Chance) (parts : List PartSpec) : Nat :=
  crc32Ieee ((gptEntries chance parts).get 0 entryArrayBytes)

theorem primaryHeader_fields (last : plan.disk.lastLba < 2 ^ 64) :
    HeaderFields (primaryHeader chance plan) 1 plan.disk.lastLba 2
      (entriesChecksum chance plan.parts) :=
  sealHeader_fields
    (rawHeader_fields chance plan.disk (by decide) last (by decide) (crc32Ieee_lt _))

theorem primaryHeader_sealed : ChecksumHolds (primaryHeader chance plan) :=
  sealHeader_sealed fun _ lower upper => rawHeader_blank chance plan.disk lower upper

theorem backupHeader_fields (last : plan.disk.lastLba < 2 ^ 64) :
    HeaderFields (backupHeader chance plan) plan.disk.lastLba 1 (backupEntriesLba plan.disk)
      (entriesChecksum chance plan.parts) := by
  have copied : HeaderFields (zeros.place 0 (primaryHeader chance plan) 92) 1 plan.disk.lastLba 2
      (entriesChecksum chance plan.parts) :=
    (primaryHeader_fields last).congr fun index bound _ =>
      place_inside (Nat.zero_le index) (by omega)
  have wide : (2 : Nat) ^ 64 = 256 ^ 8 := rfl
  have array : backupEntriesLba plan.disk < 256 ^ 8 := by
    have := Nat.sub_le plan.disk.lastLba plan.disk.entrySectors
    rw [backupEntriesLba]
    omega
  rw [wide] at last
  apply sealHeader_fields
  constructor
  · simp (disch := simp) only [get_put_outside, copied.signature]
  all_goals simp (disch := first | assumption | simp) only [le_put_outside, le_put, copied.size,
    copied.count, copied.width, copied.checksum]

theorem backupHeader_sealed : ChecksumHolds (backupHeader chance plan) := by
  apply sealHeader_sealed
  intro index lower upper
  obtain ⟨inner, rfl⟩ := Nat.exists_eq_add_of_le lower
  have small : inner < (leBytes 4 0).length := by rw [length_leBytes]; omega
  simp (disch := omega) only [put_outside]
  rw [put_inside small]
  have zero : leBytes 4 0 = [0, 0, 0, 0] := rfl
  rw [length_leBytes] at small
  rw [zero]
  interval_cases inner <;> rfl

/-- A header of the writer's format in its sector is accepted. -/
theorem gptHeaderAt_accepts {device : Device} {secSz hdrLba : Nat} (most : 92 ≤ secSz)
    (reach : device.Reaches (hdrLba * secSz) secSz)
    (written : ∀ index, index < secSz → device.bytes (hdrLba * secSz + index) = hdr index)
    (fields : HeaderFields hdr myLba otherLba entriesLba entriesCrc)
    (sealed : ChecksumHolds hdr) :
    ∃ found, gptHeaderAt device secSz hdrLba = some found ∧ ChecksumHolds found ∧
      HeaderFields found myLba otherLba entriesLba entriesCrc := by
  have word : hdrLba * secSz % 2 ^ 64 = hdrLba * secSz := Nat.mod_eq_of_lt (by
    have := reach.2
    omega)
  have read : device.pread (hdrLba * secSz) secSz =
      some fun index => device.bytes (hdrLba * secSz + index) := if_pos reach
  have same : ∀ index, index < 92 → device.bytes (hdrLba * secSz + index) = hdr index :=
    fun index bound => written index (by omega)
  have readFields := fields.congr fun index bound _ => same index bound
  have readSealed := sealed.congr same
  refine ⟨_, ?_, readSealed, readFields⟩
  rw [gptHeaderAt, word, read]
  simp only [Option.bind_eq_bind, Option.bind_some, readFields.signature, readFields.size]
  rw [if_neg (by simp), if_neg (by omega), if_neg (by rw [readSealed]; simp)]

/-- Where the signature's first byte is blank there is no header. -/
theorem gptHeaderAt_blank {device : Device} {secSz hdrLba : Nat}
    (blank : device.bytes (hdrLba * secSz % 2 ^ 64) = 0) : gptHeaderAt device secSz hdrLba = none := by
  unfold gptHeaderAt Device.pread
  generalize hdrLba * secSz % 2 ^ 64 = off at *
  split
  · have signature : get (fun index => device.bytes (off + index)) 0 8 ≠ efiPart := by
      intro same
      have first := congrArg List.head? same
      rw [head?_get, Nat.add_zero, blank] at first
      cases first
    simp only [Option.bind_eq_bind, Option.bind_some, if_pos signature]
  · rfl

end Headers

section Entries

variable {base size index address : Nat} {encode : Nat → PartSpec → List UInt8}
  {parts : List PartSpec} {buffer : ByteMap}

theorem putEntries_outside (small : ∀ index part, part ∈ parts → (encode index part).length ≤ size)
    (outside : address < base + index * size ∨ base + (index + parts.length) * size ≤ address) :
    putEntries base size encode index parts buffer address = buffer address := by
  induction parts generalizing index buffer with
  | nil => rfl
  | cons part rest ih =>
      have fits := small index part List.mem_cons_self
      have step : (index + 1) * size = index * size + size := Nat.succ_mul index size
      rw [List.length_cons, ← Nat.add_assoc, Nat.add_right_comm] at outside
      have grows := Nat.mul_le_mul_right size (Nat.le_add_right (index + 1) rest.length)
      rw [putEntries, ih (fun index part later => small index part (List.mem_cons_of_mem _ later))
        (by omega)]
      exact put_outside (by omega)

/-- In its own slot a part stands as it was encoded, over what stood there before. -/
theorem putEntries_inside (base index : Nat) (buffer : ByteMap)
    (small : ∀ index part, part ∈ parts →
      (encode index part).length ≤ size) {place : Nat} {part : PartSpec} (listed : parts[place]? = some part) :
    ∃ before : ByteMap, ∀ inner, inner < size →
      putEntries base size encode index parts buffer (base + (index + place) * size + inner) =
        before.put (base + (index + place) * size) (encode (index + place) part)
          (base + (index + place) * size + inner) := by
  induction parts generalizing index buffer place with
  | nil => cases listed
  | cons head rest ih =>
      have later := fun index part member => small index part (List.mem_cons_of_mem head member)
      cases place with
      | zero =>
          cases listed
          have step : (index + 1) * size = index * size + size := Nat.succ_mul index size
          refine ⟨buffer, fun inner bound => ?_⟩
          rw [putEntries, putEntries_outside later (by rw [Nat.add_zero]; omega)]
          rfl
      | succ place =>
          obtain ⟨before, written⟩ := ih (index + 1)
            (buffer.put (base + index * size) (encode index head)) later listed
          have slot : index + 1 + place = index + (place + 1) := by omega
          rw [slot] at written
          exact ⟨before, written⟩

theorem length_encodeUtf16leName (ascii : String) : (encodeUtf16leName ascii).length ≤ 70 := by
  have most := List.length_take_le 35 ascii.toList
  simp [encodeUtf16leName]
  omega

variable {chance : Chance}

theorem length_genRandomGuidV4 (raw : RawGuid) : (genRandomGuidV4 raw).length = 16 := by
  rw [genRandomGuidV4, List.length_set, List.length_set, List.length_ofFn]

theorem length_gptEntry {part : PartSpec} (guid : part.gptType.length = 16) :
    (gptEntry chance index part).length ≤ 128 := by
  have name := length_encodeUtf16leName part.gptName
  simp only [gptEntry, List.length_append, length_leBytes, length_genRandomGuidV4, guid]
  omega

theorem length_encodeChs (lba : Nat) : (encodeChs lba).length = 3 := by
  unfold encodeChs
  split <;> rfl

theorem length_mbrEntry (status type : UInt8) (first last start count : Nat) :
    (mbrEntry status type first last start count).length = 16 := by
  simp [mbrEntry, length_encodeChs]

/-- Reading an entry of the written array. -/
theorem gptEntries_listed (chance : Chance) (guids : ∀ part ∈ parts, part.gptType.length = 16) {place : Nat}
    {part : PartSpec} (listed : parts[place]? = some part) (first : part.firstLba < 256 ^ 8)
    (last : part.lastLba < 256 ^ 8) :
    (gptEntries chance parts).get (place * 128) 16 = part.gptType ∧
      (gptEntries chance parts).le (place * 128 + 32) 8 = part.firstLba ∧
      (gptEntries chance parts).le (place * 128 + 40) 8 = part.lastLba := by
  have guid := guids part (List.mem_of_getElem? listed)
  have small : ∀ index part, part ∈ parts → (gptEntry chance index part).length ≤ 128 :=
    fun index part member => length_gptEntry (guids part member)
  obtain ⟨before, written⟩ := putEntries_inside 0 0 zeros small listed
  simp only [Nat.zero_add] at written
  have front : (part.gptType ++ genRandomGuidV4 (chance.entryGuid place)).length = 32 := by
    rw [List.length_append, guid, length_genRandomGuidV4]
  refine ⟨?_, ?_, ?_⟩
  · have read := get_put_part before (place * 128) [] part.gptType
      (genRandomGuidV4 (chance.entryGuid place) ++ leBytes 8 part.firstLba ++
        leBytes 8 part.lastLba ++ leBytes 8 part.gptAttrs ++ encodeUtf16leName part.gptName)
    rw [guid, List.length_nil, Nat.add_zero] at read
    refine Eq.trans (get_congr fun inner bound => ?_) read
    refine (written inner (by omega)).trans ?_
    simp only [gptEntry, List.append_assoc, List.nil_append]
  · have read := le_put_part before (place * 128) (leBytes 8 part.lastLba ++
      leBytes 8 part.gptAttrs ++ encodeUtf16leName part.gptName) front first
    refine Eq.trans (le_congr fun inner bound => ?_) read
    rw [Nat.add_assoc]
    refine (written (32 + inner) (by omega)).trans ?_
    simp only [gptEntry, List.append_assoc]
  · have longer : (part.gptType ++ genRandomGuidV4 (chance.entryGuid place) ++
        leBytes 8 part.firstLba).length = 40 := by
      rw [List.length_append, front, length_leBytes]
    have read := le_put_part before (place * 128)
      (leBytes 8 part.gptAttrs ++ encodeUtf16leName part.gptName) longer last
    refine Eq.trans (le_congr fun inner bound => ?_) read
    rw [Nat.add_assoc]
    refine (written (40 + inner) (by omega)).trans ?_
    simp only [gptEntry, List.append_assoc]

theorem gptEntries_unlisted (guids : ∀ part ∈ parts, part.gptType.length = 16)
    (beyond : parts.length * 128 ≤ address) : gptEntries chance parts address = 0 := by
  rw [gptEntries, putEntries_outside (fun index part member => length_gptEntry (guids part member))
    (by omega)]
  rfl

/-- An array of the writer's format, at the sector that a header names, is accepted for every
slice up to its size. -/
theorem gptEntriesOf_accepts {device : Device} {secSz slice myLba otherLba entriesLba : Nat}
    {hdr : ByteMap} (sizes : secSz = 512 ∨ secSz = 1024 ∨ secSz = 2048 ∨ secSz = 4096)
    (fields : HeaderFields hdr myLba otherLba entriesLba (entriesChecksum chance parts))
    (later : 2 ≤ entriesLba) (reach : device.Reaches (entriesLba * secSz) entryArrayBytes)
    (written : ∀ index, index < entryArrayBytes →
      device.bytes (entriesLba * secSz + index) = gptEntries chance parts index) :
    gptEntriesOf device secSz hdr slice =
      if slice ≤ 128 then some fun index => device.bytes (entriesLba * secSz + index) else none := by
  have word : entriesLba * secSz % 2 ^ 64 = entriesLba * secSz := Nat.mod_eq_of_lt (by
    have := reach.2
    omega)
  have raw : 128 * 128 = entryArrayBytes := rfl
  have whole : (entryArrayBytes + secSz - 1) / secSz * secSz = entryArrayBytes := by
    rcases sizes with rfl | rfl | rfl | rfl <;> rfl
  have read : device.pread (entriesLba * secSz) entryArrayBytes =
      some fun index => device.bytes (entriesLba * secSz + index) := if_pos reach
  have array : get (fun index => device.bytes (entriesLba * secSz + index)) 0 entryArrayBytes =
      (gptEntries chance parts).get 0 entryArrayBytes := by
    apply get_congr
    intro index bound
    rw [Nat.zero_add]
    exact written index bound
  have crc : crc32Ieee (get (fun index => device.bytes (entriesLba * secSz + index)) 0
      entryArrayBytes) = entriesChecksum chance parts := by
    rw [array, entriesChecksum]
  simp only [gptEntriesOf, fields.entries, fields.count, fields.width, fields.checksum, word, raw,
    whole, read, -Nat.reduceMul]
  by_cases inside : slice ≤ 128
  · rw [if_neg (by omega), if_neg (by rw [← raw]; omega), if_pos inside, Option.bind_eq_bind,
      Option.bind_some, crc]
    exact if_neg (by simp)
  · rw [if_pos (by omega), if_neg inside]

/-- The slices of a written array are the parts. -/
theorem gptSlice_written {myLba otherLba entriesLba entriesCrc slice : Nat} {hdr ents : ByteMap}
    (fields : HeaderFields hdr myLba otherLba entriesLba entriesCrc)
    (guids : ∀ part ∈ parts, part.gptType.length = 16 ∧ ∃ byte ∈ part.gptType, byte ≠ 0)
    (lbas : ∀ part ∈ parts, 0 < part.firstLba ∧ part.firstLba ≤ part.lastLba ∧
      part.lastLba < 256 ^ 8)
    (written : ∀ index, index < entryArrayBytes → ents index = gptEntries chance parts index)
    (positive : 0 < slice) (inside : slice ≤ 128) :
    gptSlice hdr ents slice = parts[slice - 1]?.map fun part => (part.firstLba, part.count) := by
  obtain ⟨place, rfl⟩ := Nat.exists_eq_succ_of_ne_zero (Nat.ne_of_gt positive)
  have slot : (place + 1) * 128 ≤ entryArrayBytes := Nat.mul_le_mul_right 128 inside
  have type : ents.get (place * 128) 16 = (gptEntries chance parts).get (place * 128) 16 :=
    get_congr fun index bound => written _ (by omega)
  have field (off : Nat) (within : off + 8 ≤ 128) :
      ents.le (place * 128 + off) 8 = (gptEntries chance parts).le (place * 128 + off) 8 :=
    le_congr fun index bound => written _ (by omega)
  simp only [gptSlice, fields.width, Nat.succ_eq_add_one, Nat.add_sub_cancel, type,
    field 32 (by omega), field 40 (by omega)]
  cases listed : parts[place]? with
  | some part =>
      have member := List.mem_of_getElem? listed
      obtain ⟨first, order, last⟩ := lbas part member
      obtain ⟨byte, found, nonzero⟩ := (guids part member).2
      obtain ⟨sameType, sameFirst, sameLast⟩ := gptEntries_listed chance
        (fun part member => (guids part member).1) listed (by omega) last
      rw [sameType, sameFirst, sameLast, if_neg]
      · rfl
      · rintro (allZero | zero | backwards)
        · exact nonzero (allZero byte found)
        · omega
        · omega
  | none =>
      have beyond : parts.length ≤ place := List.getElem?_eq_none_iff.mp listed
      have blank : ∀ byte ∈ (gptEntries chance parts).get (place * 128) 16, byte = 0 := by
        intro byte member
        obtain ⟨inner, _, rfl⟩ := List.mem_map.mp member
        exact gptEntries_unlisted (fun part member => (guids part member).1) (by omega)
      rw [if_pos (.inl blank)]
      rfl

end Entries

section FirstSector

variable {run : PartRun} {plan : Plan} {place : Nat}

theorem firstSector_signature (run : PartRun) (plan : Plan) (isGpt : Bool) :
    firstSector run isGpt plan 510 = 0x55 ∧ firstSector run isGpt plan 511 = 0xAA := by
  constructor
  · exact put_inside (show 0 < [(0x55 : UInt8), 0xAA].length by decide)
  · exact put_inside (show 1 < [(0x55 : UInt8), 0xAA].length by decide)

theorem mbrEntry_type (map : ByteMap) (off : Nat) (status type : UInt8)
    (first last start count : Nat) :
    (map.put off (mbrEntry status type first last start count)) (off + 4) = type := by
  have front : (status :: encodeChs first).length = 4 := by
    rw [List.length_cons, length_encodeChs]
  rw [put_inside (by rw [length_mbrEntry]; omega), mbrEntry, List.append_assoc, List.append_assoc,
    List.getD_append_right _ _ _ _ (by omega), front]
  rfl

/-- Before the parts are listed the table in the first sector of a DOS disk is blank. -/
theorem firstSector_started {index : Nat} (table : 446 ≤ index) :
    ((zeros.put 0 (run.mbr440 false).bytes).put 440
      (leBytes 4 (diskSignature run.chance))) index = 0 := by
  have code := (run.mbr440 false).size
  rw [put_outside (by rw [length_leBytes]; omega), put_outside (by omega)]
  rfl

theorem length_listed (index : Nat) (part : PartSpec) (_ : part ∈ plan.parts) :
    ((fun _ part => part.mbrEntry : Nat → PartSpec → List UInt8) index part).length ≤ 16 :=
  Nat.le_of_eq (length_mbrEntry _ _ _ _ _ _)

theorem firstSector_unlisted (run : PartRun) (slot : place < 4) (beyond : plan.parts.length ≤ place) :
    firstSector run false plan (446 + place * 16 + 4) = 0 := by
  have signature : 446 + place * 16 + 4 < 510 := by omega
  refine (put_outside (.inl signature)).trans ?_
  rw [if_neg Bool.false_ne_true, putEntries_outside length_listed (by omega)]
  exact firstSector_started (by omega)

theorem firstSector_listed (run : PartRun) {part : PartSpec} (slot : place < 4)
    (listed : plan.parts[place]? = some part) (start : part.firstLba < 256 ^ 4)
    (count : part.count < 256 ^ 4) :
    firstSector run false plan (446 + place * 16 + 4) = part.mbrType ∧
      (firstSector run false plan).le (446 + place * 16 + 8) 4 = part.firstLba ∧
      (firstSector run false plan).le (446 + place * 16 + 12) 4 = part.count := by
  obtain ⟨before, written⟩ := putEntries_inside 446 0 ((zeros.put 0 (run.mbr440 false).bytes).put
    440 (leBytes 4 (diskSignature run.chance))) length_listed listed
  rw [Nat.zero_add] at written
  have entry (inner : Nat) (bound : inner < 16) :
      firstSector run false plan (446 + place * 16 + inner) =
        before.put (446 + place * 16) part.mbrEntry (446 + place * 16 + inner) := by
    have signature : 446 + place * 16 + inner < 510 := by omega
    refine (put_outside (.inl signature)).trans ?_
    rw [if_neg Bool.false_ne_true]
    exact written inner bound
  have front : (part.mbrStatus :: encodeChs part.firstLba ++
      part.mbrType :: encodeChs part.lastLba).length = 8 := by
    simp [length_encodeChs]
  refine ⟨?_, ?_, ?_⟩
  · rw [entry 4 (by omega)]
    exact mbrEntry_type before _ _ _ _ _ _ _
  · refine Eq.trans (le_congr fun inner bound => ?_)
      (le_put_part before (446 + place * 16) (leBytes 4 part.count) front start)
    rw [Nat.add_assoc]
    exact entry (8 + inner) (by omega)
  · have longer : (part.mbrStatus :: encodeChs part.firstLba ++
        part.mbrType :: encodeChs part.lastLba ++ leBytes 4 part.firstLba).length = 12 := by
      rw [List.length_append, front, length_leBytes]
    refine Eq.trans (le_congr fun inner bound => ?_)
      (le_put_part before (446 + place * 16) [] longer count)
    rw [Nat.add_assoc, List.append_nil]
    exact entry (12 + inner) (by omega)

theorem firstSector_protective : firstSector run true plan (446 + 4) = 0xEE := by
  have signature : 446 + 4 < 510 := by omega
  refine (put_outside (.inl signature)).trans ?_
  rw [if_pos rfl]
  exact mbrEntry_type _ _ _ _ _ _ _ _

end FirstSector

end Rufux.Macos
