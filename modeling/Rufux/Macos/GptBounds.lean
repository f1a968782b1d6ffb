import Rufux.Library.Checked
import Rufux.Macos.RoundTrip

/-!
The GPT reader on a disk of any contents: no access leaves its buffer, and an answer is what
an entry of the checked array says, unless the place of the array or the end of the slice wraps.
-/

namespace Rufux.Macos

open Library ByteMap

/-- A buffer as far as its bytes were set. -/
structure Buffer where
  len : Nat
  bytes : ByteMap

namespace Buffer

variable {α : Type} (buffer : Buffer) (off len : Nat)

/-- What an access to some of the bytes gives. -/
def within (value : α) : Checked α :=
  if off + len ≤ buffer.len then .ok value else .error (.outside (off + len - 1))

def get : Checked (List UInt8) := buffer.within off len (buffer.bytes.get off len)

def le : Checked Nat := buffer.within off len (buffer.bytes.le off len)

def byte : Checked UInt8 := buffer.within off 1 (buffer.bytes off)

/-- `memset` to zero. -/
def clear : Checked Buffer :=
  buffer.within off len { buffer with bytes := buffer.bytes.place off zeros len }

/-- `memcpy` of the first bytes into a buffer with so much room. -/
def copy (room : Nat) : Checked Buffer :=
  if len ≤ room then buffer.within 0 len { buffer with len } else .error (.outside (len - 1))

variable {buffer off len}

theorem within_ok {value : α} (inside : off + len ≤ buffer.len) :
    buffer.within off len value = .ok value :=
  if_pos inside

theorem copy_ok {room : Nat} (fits : len ≤ room) (inside : len ≤ buffer.len) :
    buffer.copy len room = .ok { buffer with len } := by
  rw [copy, if_pos fits, within_ok (by omega)]

end Buffer

/-- `pread_all` into a buffer with so much room. -/
def Device.preadInto (device : Device) (room off len : Nat) : Checked (Option Buffer) :=
  if len ≤ room then .ok ((device.pread off len).map fun bytes => ⟨len, bytes⟩)
  else .error (.outside (len - 1))

theorem Device.preadInto_ok {device : Device} {room off len : Nat} (fits : len ≤ room) :
    device.preadInto room off len = .ok ((device.pread off len).map fun bytes => ⟨len, bytes⟩) :=
  if_pos fits

section Checks

variable (device : Device) (secSz hdrLba slice : Nat)

def checkedHeader : Checked (Option Buffer) := do
  match ← device.preadInto 4096 (hdrLba * secSz % 2 ^ 64) secSz with
  | none => pure none
  | some hdr =>
      let signature ← hdr.get 0 8
      if signature ≠ efiPart then pure none
      else
        let hdrSz ← hdr.le 12 4
        if hdrSz < 92 ∨ secSz < hdrSz then pure none
        else
          let stored ← hdr.le 16 4
          let hcopy ← hdr.copy hdrSz 4096
          let hcopy ← hcopy.clear 16 4
          let whole ← hcopy.get 0 hdrSz
          if crc32Ieee whole ≠ stored then pure none else pure (some hdr)

def checkedEntries (hdr : Buffer) : Checked (Option Buffer) := do
  let entLba ← hdr.le 72 8
  let numEnts ← hdr.le 80 4
  let entSz ← hdr.le 84 4
  let stored ← hdr.le 88 4
  if entLba < 2 ∨ numEnts = 0 ∨ 4096 < numEnts ∨ entSz < 128 ∨ 4096 < entSz ∨
      numEnts < slice then pure none
  else
    let rawBytes ← size (numEnts * entSz)
    if 2 ^ 20 < rawBytes then pure none
    else
      let padded ← size (rawBytes + secSz)
      let last ← minus padded 1
      let alignedBytes ← size (last / secSz * secSz)
      match ← device.preadInto alignedBytes (entLba * secSz % 2 ^ 64) alignedBytes with
      | none => pure none
      | some ents =>
          let array ← ents.get 0 rawBytes
          if crc32Ieee array ≠ stored then pure none else pure (some ents)

def checkedSlice (hdr ents : Buffer) : Checked (Option (Nat × Nat)) := do
  let entSz ← hdr.le 84 4
  let index ← minus slice 1
  let entry ← size (index * entSz)
  let type ← ents.get entry 16
  let first ← ents.le (entry + 32) 8
  let last ← ents.le (entry + 40) 8
  if (∀ byte ∈ type, byte = 0) ∨ first = 0 ∨ last < first then pure none
  else
    let gap ← minus last first
    let count ← fits 64 (gap + 1)
    pure (some (first, count))

/-- `parse_gpt_slice_at_hdr`, with its accesses and sizes checked. -/
def checkedParse : Checked (Option (Nat × Nat)) := do
  match ← checkedHeader device secSz hdrLba with
  | none => pure none
  | some hdr =>
      match ← checkedEntries device secSz slice hdr with
      | none => pure none
      | some ents => checkedSlice slice hdr ents

def checkedProtective (mbr : Buffer) : List Nat → Checked Bool
  | [] => pure false
  | index :: rest => do
      let type ← mbr.byte (446 + index * 16 + 4)
      if type = 0xEE then pure true else checkedProtective mbr rest

def checkedMbrSlice (mbr : Buffer) : Checked (Option (Nat × Nat)) := do
  let index ← minus slice 1
  let entry := 446 + index * 16
  let type ← mbr.byte (entry + 4)
  let start ← mbr.le (entry + 8) 4
  let count ← mbr.le (entry + 12) 4
  if type ≠ 0 ∧ 0 < start ∧ 0 < count then pure (some (start, count)) else pure none

end Checks

/-- `rufux_part_offset_sectors`, with its accesses and sizes checked. -/
def checkedOffset (target : Target) (opened : Option Device) (slice : Int) :
    Checked (Option (Nat × Nat)) :=
  let secSz := target.sectorSize.toNat
  if target.dst = "" ∨ slice < 1 ∨ secSz < 512 ∨ 4096 < secSz then pure none
  else
    match opened with
    | none => pure none
    | some device => do
        match ← device.preadInto 4096 0 secSz with
        | none => pure none
        | some mbr =>
            let low ← mbr.byte 510
            let high ← mbr.byte 511
            if low ≠ 0x55 ∨ high ≠ 0xAA then pure none
            else
              let protective ← checkedProtective mbr (List.range 4)
              if protective then
                match ← checkedParse device secSz 1 slice.toNat with
                | some found => pure (some found)
                | none =>
                    let totalLbas := target.devBytes.toNat / secSz
                    if 4 < totalLbas then do
                      let lastLba ← minus totalLbas 1
                      checkedParse device secSz lastLba slice.toNat
                    else pure none
              else if slice ≤ 4 then checkedMbrSlice slice.toNat mbr
              else pure none

section Bounded

variable {device : Device} {secSz hdrLba slice : Nat} {hdr ents mbr : Buffer}

theorem checkedHeader_ok (least : 92 ≤ secSz) (most : secSz ≤ 4096) :
    checkedHeader device secSz hdrLba =
      .ok ((gptHeaderAt device secSz hdrLba).map fun bytes => ⟨secSz, bytes⟩) := by
  unfold checkedHeader gptHeaderAt
  rw [Device.preadInto_ok most, ok_bind]
  cases device.pread (hdrLba * secSz % 2 ^ 64) secSz with
  | none => rfl
  | some bytes =>
      dsimp only [Option.map_some, Option.bind_eq_bind, Option.bind_some]
      unfold Buffer.get Buffer.le Buffer.clear
      rw [Buffer.within_ok (by dsimp only; omega), ok_bind]
      by_cases signature : bytes.get 0 8 ≠ efiPart
      · rw [if_pos signature, if_pos signature]
        rfl
      · rw [if_neg signature, if_neg signature, Buffer.within_ok (by dsimp only; omega), ok_bind]
        by_cases width : bytes.le 12 4 < 92 ∨ secSz < bytes.le 12 4
        · rw [if_pos width, if_pos width]
          rfl
        · rw [if_neg width, if_neg width, Buffer.within_ok (by dsimp only; omega), ok_bind,
            Buffer.copy_ok (by dsimp only; omega) (by dsimp only; omega), ok_bind,
            Buffer.within_ok (by dsimp only; omega), ok_bind,
            Buffer.within_ok (by dsimp only; omega), ok_bind]
          split <;> rfl

/-- The bytes of the entry array, in whole sectors. -/
def alignedBytes (secSz rawBytes : Nat) : Nat := (rawBytes + secSz - 1) / secSz * secSz

theorem le_alignedBytes {rawBytes : Nat} (positive : 0 < secSz) :
    rawBytes ≤ alignedBytes secSz rawBytes := by
  have whole := Nat.div_add_mod (rawBytes + secSz - 1) secSz
  have rest := Nat.mod_lt (rawBytes + secSz - 1) positive
  rw [Nat.mul_comm] at whole
  unfold alignedBytes
  omega

theorem alignedBytes_le {rawBytes : Nat} : alignedBytes secSz rawBytes ≤ rawBytes + secSz :=
  Nat.le_trans (Nat.div_mul_le_self _ _) (Nat.sub_le _ _)

theorem size_ok {value : Nat} (small : value < 2 ^ 64) : size value = .ok value := if_pos small

theorem checkedEntries_ok (least : 92 ≤ secSz) (most : secSz ≤ 4096) (filled : hdr.len = secSz) :
    checkedEntries device secSz slice hdr =
      .ok ((gptEntriesOf device secSz hdr.bytes slice).map fun bytes =>
        ⟨alignedBytes secSz (hdr.bytes.le 80 4 * hdr.bytes.le 84 4), bytes⟩) := by
  unfold checkedEntries gptEntriesOf Buffer.le
  rw [Buffer.within_ok (by omega), ok_bind, Buffer.within_ok (by omega), ok_bind,
    Buffer.within_ok (by omega), ok_bind, Buffer.within_ok (by omega), ok_bind]
  generalize hdr.bytes.le 72 8 = entLba
  generalize hdr.bytes.le 80 4 = numEnts
  generalize hdr.bytes.le 84 4 = entSz
  generalize hdr.bytes.le 88 4 = stored
  by_cases refused : entLba < 2 ∨ numEnts = 0 ∨ 4096 < numEnts ∨ entSz < 128 ∨ 4096 < entSz ∨
      numEnts < slice
  · rw [if_pos refused]
    dsimp only
    rw [if_pos refused]
    rfl
  · rw [if_neg refused]
    dsimp only
    rw [if_neg refused]
    have product : numEnts * entSz ≤ 4096 * 4096 := Nat.mul_le_mul (by omega) (by omega)
    have enough : numEnts * entSz ≤ alignedBytes secSz (numEnts * entSz) :=
      le_alignedBytes (by omega)
    have small : alignedBytes secSz (numEnts * entSz) ≤ numEnts * entSz + secSz := alignedBytes_le
    unfold alignedBytes at enough small ⊢
    generalize numEnts * entSz = rawBytes at product enough small ⊢
    rw [size_ok (by omega), ok_bind]
    by_cases large : 2 ^ 20 < rawBytes
    · rw [if_pos large, if_pos large]
      rfl
    · rw [if_neg large, if_neg large, size_ok (by omega), ok_bind, (goes_minus (by omega)).eq,
        ok_bind, size_ok (by omega), ok_bind, Device.preadInto_ok (Nat.le_refl _), ok_bind]
      cases device.pread (entLba * secSz % 2 ^ 64)
          ((rawBytes + secSz - 1) / secSz * secSz) with
      | none => rfl
      | some bytes =>
          dsimp only [Option.map_some, Option.bind_eq_bind, Option.bind_some]
          unfold Buffer.get
          rw [Buffer.within_ok (by dsimp only; omega), ok_bind]
          split <;> rfl

theorem checkedSlice_ok (positive : 0 < slice) (least : 92 ≤ hdr.len)
    (slot : slice * hdr.bytes.le 84 4 ≤ ents.len) (wide : 128 ≤ hdr.bytes.le 84 4)
    (small : ents.len < 2 ^ 32) :
    checkedSlice slice hdr ents = .ok (gptSlice hdr.bytes ents.bytes slice) := by
  obtain ⟨index, rfl⟩ := Nat.exists_eq_add_of_lt positive
  unfold checkedSlice gptSlice Buffer.le Buffer.get
  rw [Buffer.within_ok (by omega), ok_bind, (goes_minus (by omega)).eq, ok_bind]
  have first : 0 + index + 1 - 1 = index := by omega
  rw [first]
  rw [Nat.zero_add, Nat.succ_mul] at slot
  generalize hdr.bytes.le 84 4 = entSz at slot wide ⊢
  generalize index * entSz = entry at slot ⊢
  rw [size_ok (by omega), ok_bind, Buffer.within_ok (by omega), ok_bind,
    Buffer.within_ok (by omega), ok_bind, Buffer.within_ok (by omega), ok_bind]
  dsimp only
  have word : ents.bytes.le (entry + 40) 8 < 2 ^ 64 := le_lt
  by_cases refused : (∀ byte ∈ ents.bytes.get entry 16, byte = 0) ∨
      ents.bytes.le (entry + 32) 8 = 0 ∨
      ents.bytes.le (entry + 40) 8 < ents.bytes.le (entry + 32) 8
  · rw [if_pos refused, if_pos refused]
    rfl
  · rw [if_neg refused, if_neg refused, (goes_minus (by omega)).eq, ok_bind,
      (goes_fits (by omega)).eq, ok_bind]
    rfl

/-- What an accepted array fulfils. -/
structure EntriesOf (device : Device) (secSz slice : Nat) (hdr ents : ByteMap) : Prop where
  later : 2 ≤ hdr.le 72 8
  few : hdr.le 80 4 ≤ 4096
  wide : 128 ≤ hdr.le 84 4
  narrow : hdr.le 84 4 ≤ 4096
  listed : slice ≤ hdr.le 80 4
  read : device.pread (hdr.le 72 8 * secSz % 2 ^ 64)
    (alignedBytes secSz (hdr.le 80 4 * hdr.le 84 4)) = some ents
  checksum : crc32Ieee (ents.get 0 (hdr.le 80 4 * hdr.le 84 4)) = hdr.le 88 4

theorem gptEntriesOf_accepted {hdr ents : ByteMap}
    (accepted : gptEntriesOf device secSz hdr slice = some ents) :
    EntriesOf device secSz slice hdr ents := by
  unfold gptEntriesOf at accepted
  dsimp only at accepted
  split at accepted
  · cases accepted
  · split at accepted
    · cases accepted
    · obtain ⟨bytes, read, checked⟩ := Option.bind_eq_some_iff.mp accepted
      split at checked
      · cases checked
      · rename_i fields _ checksum
        cases checked
        exact {
          later := by omega
          few := by omega
          wide := by omega
          narrow := by omega
          listed := by omega
          read := read
          checksum := not_not.mp checksum }

theorem checkedParse_ok (least : 92 ≤ secSz) (most : secSz ≤ 4096) (positive : 0 < slice) :
    checkedParse device secSz hdrLba slice =
      .ok (parseGptSliceAtHdr device secSz hdrLba slice) := by
  unfold checkedParse parseGptSliceAtHdr
  rw [checkedHeader_ok least most, ok_bind]
  cases gptHeaderAt device secSz hdrLba with
  | none => rfl
  | some hdr =>
      dsimp only [Option.map_some, Option.bind_eq_bind, Option.bind_some]
      rw [checkedEntries_ok least most rfl, ok_bind]
      cases accepted : gptEntriesOf device secSz hdr slice with
      | none => rfl
      | some ents =>
          have entries := gptEntriesOf_accepted accepted
          have small : alignedBytes secSz (hdr.le 80 4 * hdr.le 84 4) ≤
              hdr.le 80 4 * hdr.le 84 4 + secSz := alignedBytes_le
          have enough : hdr.le 80 4 * hdr.le 84 4 ≤
              alignedBytes secSz (hdr.le 80 4 * hdr.le 84 4) := le_alignedBytes (by omega)
          have product : hdr.le 80 4 * hdr.le 84 4 ≤ 4096 * 4096 :=
            Nat.mul_le_mul entries.few entries.narrow
          have slot := Nat.mul_le_mul_right (hdr.le 84 4) entries.listed
          dsimp only [Option.map_some, Option.bind_some]
          exact checkedSlice_ok positive least (Nat.le_trans slot enough) entries.wide
            (by dsimp only; omega)

theorem checkedProtective_ok {indices : List Nat} (inside : ∀ index ∈ indices, index < 4)
    (least : 512 ≤ mbr.len) :
    checkedProtective mbr indices =
      .ok (indices.any fun index => mbr.bytes (446 + index * 16 + 4) = 0xEE) := by
  induction indices with
  | nil => rfl
  | cons index rest ih =>
      have below := inside index List.mem_cons_self
      unfold checkedProtective Buffer.byte
      rw [Buffer.within_ok (by omega), ok_bind, List.any_cons]
      by_cases found : mbr.bytes (446 + index * 16 + 4) = 0xEE
      · rw [if_pos found, decide_eq_true found]
        rfl
      · rw [if_neg found, decide_eq_false found, Bool.false_or]
        exact ih fun later among => inside later (List.mem_cons_of_mem _ among)

theorem checkedMbrSlice_ok (positive : 0 < slice) (few : slice ≤ 4) (least : 512 ≤ mbr.len) :
    checkedMbrSlice slice mbr = .ok (mbrSlice mbr.bytes slice) := by
  unfold checkedMbrSlice mbrSlice Buffer.byte Buffer.le
  rw [(goes_minus (by omega)).eq, ok_bind]
  dsimp only
  rw [Buffer.within_ok (by omega), ok_bind, Buffer.within_ok (by omega), ok_bind,
    Buffer.within_ok (by omega), ok_bind]
  split <;> rfl

/-- No access of the reader leaves its buffer and no size wraps, whatever the disk holds. -/
theorem checkedOffset_ok (target : Target) (opened : Option Device) (slice : Int) :
    checkedOffset target opened slice = .ok (rufuxPartOffsetSectors target opened slice) := by
  unfold checkedOffset rufuxPartOffsetSectors
  dsimp only
  generalize target.sectorSize.toNat = secSz
  by_cases refused : target.dst = "" ∨ slice < 1 ∨ secSz < 512 ∨ 4096 < secSz
  · rw [if_pos refused, if_pos refused]
    rfl
  · rw [if_neg refused, if_neg refused]
    cases opened with
    | none => rfl
    | some device =>
        dsimp only [Option.bind_eq_bind, Option.bind_some]
        rw [Device.preadInto_ok (by omega), ok_bind]
        cases device.pread 0 secSz with
        | none => rfl
        | some mbr =>
            dsimp only [Option.map_some, Option.bind_some]
            unfold Buffer.byte
            rw [Buffer.within_ok (by dsimp only; omega), ok_bind,
              Buffer.within_ok (by dsimp only; omega), ok_bind]
            by_cases unsigned : mbr 510 ≠ 0x55 ∨ mbr 511 ≠ 0xAA
            · rw [if_pos unsigned, if_pos unsigned]
              rfl
            · rw [if_neg unsigned, if_neg unsigned,
                checkedProtective_ok (fun index among => List.mem_range.mp among)
                  (by dsimp only; omega), ok_bind]
              change (if hasProtective mbr = true then _ else _) = _
              by_cases protective : hasProtective mbr = true
              · rw [if_pos protective, if_pos protective,
                  checkedParse_ok (by omega) (by omega) (by omega), ok_bind]
                cases parseGptSliceAtHdr device secSz 1 slice.toNat with
                | some found => rfl
                | none =>
                    dsimp only
                    split
                    · rw [(goes_minus (by omega)).eq, ok_bind,
                        checkedParse_ok (by omega) (by omega) (by omega)]
                    · rfl
              · rw [if_neg protective, if_neg protective]
                split
                · rw [checkedMbrSlice_ok (by omega) (by omega) (by dsimp only; omega)]
                · rfl

end Bounded

section Exact

variable (device : Device) (secSz hdrLba slice start count : Nat)

/-- Where the entry of a slice starts in its array. -/
def entryAt (hdr : ByteMap) : Nat := (slice - 1) * hdr.le 84 4

/-- A range that the table at a header sector has for a slice: the header is accepted, the
array is read from the very place the header names and has the checksum that it records, and
the entry lies within it. -/
structure FromTable (hdr ents : ByteMap) : Prop where
  header : gptHeaderAt device secSz hdrLba = some hdr
  array : device.pread (hdr.le 72 8 * secSz)
    (alignedBytes secSz (hdr.le 80 4 * hdr.le 84 4)) = some ents
  checksum : crc32Ieee (ents.get 0 (hdr.le 80 4 * hdr.le 84 4)) = hdr.le 88 4
  inside : entryAt slice hdr + 128 ≤ hdr.le 80 4 * hdr.le 84 4
  first : ents.le (entryAt slice hdr + 32) 8 = start
  last : ents.le (entryAt slice hdr + 40) 8 + 1 = start + count

/-- What a reported range has to fulfil. -/
structure ExactRange (hdr ents : ByteMap) : Prop where
  table : FromTable device secSz hdrLba slice start count hdr ents
  later : 1 ≤ start
  nonempty : 1 ≤ count
  unwrapped : start + count < 2 ^ 64

/-- `parse_gpt_slice_at_hdr` stays inside its buffers, and what it reports is exact. -/
structure ParseExact : Prop where
  bounded : checkedParse device secSz hdrLba slice =
    .ok (parseGptSliceAtHdr device secSz hdrLba slice)
  exact : ∀ start count, parseGptSliceAtHdr device secSz hdrLba slice = some (start, count) →
    ∃ hdr ents, ExactRange device secSz hdrLba slice start count hdr ents

/-- The disk has an accepted table at a sector with a range for a slice. -/
def HasSlice (hdr ents : ByteMap) : Prop :=
  gptTableAt device secSz hdrLba slice = some (hdr, ents) ∧
    (∃ byte ∈ ents.get (entryAt slice hdr) 16, byte ≠ 0) ∧
    0 < ents.le (entryAt slice hdr + 32) 8 ∧
    ents.le (entryAt slice hdr + 32) 8 ≤ ents.le (entryAt slice hdr + 40) 8

/-- The place of the array is beyond 64 bits, or the slice ends with the last sector of all. -/
def Wraps (hdr ents : ByteMap) : Prop :=
  2 ^ 64 ≤ hdr.le 72 8 * secSz ∨ ents.le (entryAt slice hdr + 40) 8 + 1 = 2 ^ 64

/-- The table at a sector misleads the reader about a slice. -/
def MisleadsAt : Prop :=
  ∃ hdr ents, HasSlice device secSz hdrLba slice hdr ents ∧ Wraps secSz slice hdr ents

variable {device secSz hdrLba slice start count}

theorem gptTableAt_eq_some {hdr ents : ByteMap} :
    gptTableAt device secSz hdrLba slice = some (hdr, ents) ↔
      gptHeaderAt device secSz hdrLba = some hdr ∧
        gptEntriesOf device secSz hdr slice = some ents := by
  unfold gptTableAt
  constructor
  · intro both
    obtain ⟨found, header, rest⟩ := Option.bind_eq_some_iff.mp both
    obtain ⟨array, entries, same⟩ := Option.bind_eq_some_iff.mp rest
    cases same
    exact ⟨header, entries⟩
  · rintro ⟨header, entries⟩
    rw [header, Option.bind_eq_bind, Option.bind_some, entries]
    rfl

/-- Success is that the disk has the slice, and the numbers are those of its entry. -/
theorem parse_eq_some :
    parseGptSliceAtHdr device secSz hdrLba slice = some (start, count) ↔
      ∃ hdr ents, HasSlice device secSz hdrLba slice hdr ents ∧
        ents.le (entryAt slice hdr + 32) 8 = start ∧
        ents.le (entryAt slice hdr + 40) 8 + 1 = start + count := by
  rw [parse_eq_tableAt]
  constructor
  · intro parsed
    obtain ⟨⟨hdr, ents⟩, table, sliced⟩ := Option.bind_eq_some_iff.mp parsed
    unfold gptSlice at sliced
    dsimp only at sliced
    split at sliced
    · cases sliced
    · rename_i used
      cases sliced
      obtain ⟨typed, first, order⟩ := not_or.mp used |>.imp_right not_or.mp
      refine ⟨hdr, ents, ⟨table, ?_, Nat.pos_of_ne_zero first, Nat.le_of_not_lt order⟩, rfl, ?_⟩
      · simpa [entryAt] using typed
      · unfold entryAt
        omega
  · rintro ⟨hdr, ents, ⟨table, typed, first, order⟩, rfl, last⟩
    rw [table, Option.bind_some]
    unfold gptSlice
    unfold entryAt at typed first order last ⊢
    dsimp only
    have used : ¬ ((∀ byte ∈ ents.get ((slice - 1) * hdr.le 84 4) 16, byte = 0) ∨
        ents.le ((slice - 1) * hdr.le 84 4 + 32) 8 = 0 ∨
        ents.le ((slice - 1) * hdr.le 84 4 + 40) 8 <
          ents.le ((slice - 1) * hdr.le 84 4 + 32) 8) := by
      rintro (blank | zero | backwards)
      · obtain ⟨byte, among, nonzero⟩ := typed
        exact nonzero (blank byte among)
      · omega
      · omega
    have counted : ents.le ((slice - 1) * hdr.le 84 4 + 40) 8 -
        ents.le ((slice - 1) * hdr.le 84 4 + 32) 8 + 1 = count := by omega
    rw [if_neg used, counted]

/-- An array that was read from its very place does not lie beyond 64 bits. -/
theorem FromTable.near {hdr ents : ByteMap}
    (table : FromTable device secSz hdrLba slice start count hdr ents) :
    hdr.le 72 8 * secSz < 2 ^ 64 := by
  have array := table.array
  unfold Device.pread at array
  split at array
  · rename_i reaches
    have := reaches.2
    omega
  · cases array

/-- The range of a table that does not wrap is exact. -/
theorem HasSlice.exactRange {hdr ents : ByteMap} (positive : 0 < slice)
    (has : HasSlice device secSz hdrLba slice hdr ents) (straight : ¬ Wraps secSz slice hdr ents)
    (first : ents.le (entryAt slice hdr + 32) 8 = start)
    (last : ents.le (entryAt slice hdr + 40) 8 + 1 = start + count) :
    ExactRange device secSz hdrLba slice start count hdr ents := by
  obtain ⟨table, -, least, order⟩ := has
  obtain ⟨header, accepted⟩ := gptTableAt_eq_some.mp table
  obtain ⟨near, short⟩ := not_or.mp straight
  have entries := gptEntriesOf_accepted accepted
  have word : ents.le (entryAt slice hdr + 40) 8 < 2 ^ 64 := le_lt
  have read := entries.read
  rw [Nat.mod_eq_of_lt (Nat.lt_of_not_le near)] at read
  obtain ⟨index, rfl⟩ := Nat.exists_eq_add_of_lt positive
  have inside : entryAt (0 + index + 1) hdr + 128 ≤ hdr.le 80 4 * hdr.le 84 4 := by
    have slot := Nat.mul_le_mul_right (hdr.le 84 4) entries.listed
    have wide := entries.wide
    have place : 0 + index + 1 - 1 = index := by omega
    rw [Nat.zero_add, Nat.succ_mul] at slot
    rw [entryAt, place]
    omega
  exact {
    table := ⟨header, read, entries.checksum, inside, first, last⟩
    later := by omega
    nonempty := by omega
    unwrapped := by omega }

/-- What a table reports is exact unless the table wraps. -/
theorem exactRange_iff {hdr ents : ByteMap} (positive : 0 < slice)
    (has : HasSlice device secSz hdrLba slice hdr ents)
    (first : ents.le (entryAt slice hdr + 32) 8 = start)
    (last : ents.le (entryAt slice hdr + 40) 8 + 1 = start + count) :
    (∃ found array, ExactRange device secSz hdrLba slice start count found array) ↔
      ¬ Wraps secSz slice hdr ents := by
  constructor
  · rintro ⟨found, array, range⟩ (far | ends)
    · have same := range.table.header.symm.trans (gptTableAt_eq_some.mp has.1).1
      cases same
      exact Nat.not_le_of_lt range.table.near far
    · have := range.unwrapped
      omega
  · intro straight
    exact ⟨hdr, ents, has.exactRange positive straight first last⟩

/-- Every answer for a slice at a sector is exact if and only if its table does not mislead. -/
theorem answers_exact_iff (positive : 0 < slice) :
    (∀ start count, parseGptSliceAtHdr device secSz hdrLba slice = some (start, count) →
      ∃ hdr ents, ExactRange device secSz hdrLba slice start count hdr ents) ↔
        ¬ MisleadsAt device secSz hdrLba slice := by
  constructor
  · rintro exact ⟨hdr, ents, has, wraps⟩
    obtain ⟨count, last⟩ := Nat.exists_eq_add_of_le has.2.2.2
    have ends : ents.le (entryAt slice hdr + 40) 8 + 1 =
        ents.le (entryAt slice hdr + 32) 8 + (count + 1) := by omega
    have range := exact _ _ (parse_eq_some.mpr ⟨hdr, ents, has, rfl, ends⟩)
    exact (exactRange_iff positive has rfl ends).mp range wraps
  · intro straight start count parsed
    obtain ⟨hdr, ents, has, first, last⟩ := parse_eq_some.mp parsed
    exact (exactRange_iff positive has first last).mpr fun wraps =>
      straight ⟨hdr, ents, has, wraps⟩

theorem parseExact_iff (least : 512 ≤ secSz) (most : secSz ≤ 4096) (positive : 0 < slice) :
    ParseExact device secSz hdrLba slice ↔ ¬ MisleadsAt device secSz hdrLba slice := by
  constructor
  · intro exact
    exact (answers_exact_iff positive).mp exact.exact
  · intro straight
    exact ⟨checkedParse_ok (by omega) most positive, (answers_exact_iff positive).mpr straight⟩

theorem gptHeaderAt_read {hdr : ByteMap} (accepted : gptHeaderAt device secSz hdrLba = some hdr) :
    device.pread (hdrLba * secSz % 2 ^ 64) secSz = some hdr := by
  obtain ⟨found, read, checked⟩ := Option.bind_eq_some_iff.mp accepted
  dsimp only at checked
  split at checked
  · cases checked
  · split at checked
    · cases checked
    · split at checked
      · cases checked
      · cases checked
        exact read

end Exact

section Offsets

variable (target : Target) (device : Device) (slice : Int)

/-- The reader gets as far as a table of this kind. -/
structure ReadsGpt (mbr : ByteMap) : Prop where
  named : target.dst ≠ ""
  positive : 1 ≤ slice
  least : 512 ≤ target.sectorSize.toNat
  most : target.sectorSize.toNat ≤ 4096
  read : device.pread 0 target.sectorSize.toNat = some mbr
  signed : mbr 510 = 0x55 ∧ mbr 511 = 0xAA
  protective : hasProtective mbr = true

def totalLbas (target : Target) : Nat := target.devBytes.toNat / target.sectorSize.toNat

/-- The sector of the header that the reader goes by. -/
def takenLba : Nat :=
  if (parseGptSliceAtHdr device target.sectorSize.toNat 1 slice.toNat).isSome then 1
  else totalLbas target - 1

/-- `rufux_part_offset_sectors` stays inside its buffers, and what it reports of a GPT disk is
an exact range of a header that was read from its very place. -/
structure OffsetExact (opened : Option Device) : Prop where
  bounded : checkedOffset target opened slice = .ok (rufuxPartOffsetSectors target opened slice)
  exact : ∀ device mbr start count, opened = some device →
    device.pread 0 target.sectorSize.toNat = some mbr → hasProtective mbr = true →
    rufuxPartOffsetSectors target opened slice = some (start, count) →
      ∃ hdr ents,
        device.pread (takenLba target device slice * target.sectorSize.toNat)
          target.sectorSize.toNat = some hdr ∧
        ExactRange device target.sectorSize.toNat (takenLba target device slice) slice.toNat
          start count hdr ents

/-- The table that the reader takes misleads it: the first one, or the last one where the first
one does not have the slice. -/
def Misleads : Prop :=
  (∃ mbr, ReadsGpt target device slice mbr) ∧
    (MisleadsAt device target.sectorSize.toNat 1 slice.toNat ∨
      (¬ ∃ hdr ents, HasSlice device target.sectorSize.toNat 1 slice.toNat hdr ents) ∧
        4 < totalLbas target ∧
        MisleadsAt device target.sectorSize.toNat (totalLbas target - 1) slice.toNat)

variable {target device slice}

theorem parse_eq_none {secSz hdrLba index : Nat} :
    parseGptSliceAtHdr device secSz hdrLba index = none ↔
      ¬ ∃ hdr ents, HasSlice device secSz hdrLba index hdr ents := by
  constructor
  · rintro missing ⟨hdr, ents, has⟩
    obtain ⟨count, last⟩ := Nat.exists_eq_add_of_le has.2.2.2
    have ends : ents.le (entryAt index hdr + 40) 8 + 1 =
        ents.le (entryAt index hdr + 32) 8 + (count + 1) := by omega
    have found := parse_eq_some.mpr ⟨hdr, ents, has, rfl, ends⟩
    rw [missing] at found
    cases found
  · intro missing
    cases parsed : parseGptSliceAtHdr device secSz hdrLba index with
    | none => rfl
    | some found =>
        obtain ⟨hdr, ents, has, -⟩ := parse_eq_some.mp parsed
        exact absurd ⟨hdr, ents, has⟩ missing

/-- Of a GPT disk the reader takes the first table, and the last one where that fails. -/
theorem offset_reads {mbr : ByteMap} (reads : ReadsGpt target device slice mbr) :
    rufuxPartOffsetSectors target (some device) slice =
      (parseGptSliceAtHdr device target.sectorSize.toNat 1 slice.toNat).or
        (if 4 < totalLbas target then
          parseGptSliceAtHdr device target.sectorSize.toNat (totalLbas target - 1) slice.toNat
        else none) := by
  have passes : ¬ (target.dst = "" ∨ slice < 1 ∨ target.sectorSize.toNat < 512 ∨
      4096 < target.sectorSize.toNat) := by
    rintro (unnamed | below | small | large)
    · exact reads.named unnamed
    · exact absurd reads.positive (Int.not_le_of_gt below)
    · exact absurd reads.least (Nat.not_le_of_lt small)
    · exact absurd reads.most (Nat.not_le_of_lt large)
  have signed : ¬ (mbr 510 ≠ 0x55 ∨ mbr 511 ≠ 0xAA) := by
    rw [reads.signed.1, reads.signed.2]
    simp
  unfold rufuxPartOffsetSectors
  dsimp only
  rw [if_neg passes, Option.bind_eq_bind, Option.bind_some, reads.read, Option.bind_eq_bind,
    Option.bind_some, if_neg signed, if_pos reads.protective]
  cases parseGptSliceAtHdr device target.sectorSize.toNat 1 slice.toNat <;> rfl

/-- Where the first sector has a protective entry, success means that the checks passed. -/
theorem readsGpt_of_success {mbr : ByteMap} {found : Nat × Nat}
    (read : device.pread 0 target.sectorSize.toNat = some mbr)
    (protective : hasProtective mbr = true)
    (success : rufuxPartOffsetSectors target (some device) slice = some found) :
    ReadsGpt target device slice mbr := by
  unfold rufuxPartOffsetSectors at success
  dsimp only at success
  split at success
  · cases success
  · rename_i passes
    rw [Option.bind_eq_bind, Option.bind_some, read, Option.bind_eq_bind,
      Option.bind_some] at success
    split at success
    · cases success
    · rename_i signed
      obtain ⟨low, high⟩ := not_or.mp signed
      obtain ⟨named, sizes⟩ := not_or.mp passes
      exact {
        named
        positive := by omega
        least := by omega
        most := by omega
        read
        signed := ⟨not_not.mp low, not_not.mp high⟩
        protective }

/-- Success of the reader is that of the header it goes by. -/
theorem offset_eq_some {mbr : ByteMap} {found : Nat × Nat}
    (reads : ReadsGpt target device slice mbr) :
    rufuxPartOffsetSectors target (some device) slice = some found ↔
      (takenLba target device slice = 1 ∨ 4 < totalLbas target) ∧
        parseGptSliceAtHdr device target.sectorSize.toNat (takenLba target device slice)
          slice.toNat = some found := by
  rw [offset_reads reads, takenLba]
  cases first : parseGptSliceAtHdr device target.sectorSize.toNat 1 slice.toNat with
  | some other =>
      rw [Option.isSome_some, if_pos rfl, first, Option.some_or]
      simp
  | none =>
      rw [Option.isSome_none, if_neg Bool.false_ne_true, Option.none_or]
      by_cases many : 4 < totalLbas target
      · simp [many]
      · rw [if_neg many]
        constructor
        · rintro ⟨⟩
        · rintro ⟨one | many, parsed⟩
          · rw [one, first] at parsed
            cases parsed
          · contradiction

/-- The header that the reader goes by misleads it. -/
theorem misleads_iff {mbr : ByteMap} (reads : ReadsGpt target device slice mbr) :
    Misleads target device slice ↔
      (takenLba target device slice = 1 ∨ 4 < totalLbas target) ∧
        MisleadsAt device target.sectorSize.toNat (takenLba target device slice) slice.toNat := by
  unfold Misleads takenLba
  cases first : parseGptSliceAtHdr device target.sectorSize.toNat 1 slice.toNat with
  | some found =>
      obtain ⟨hdr, ents, has, -⟩ := parse_eq_some.mp first
      rw [Option.isSome_some, if_pos rfl]
      constructor
      · rintro ⟨-, misled | ⟨missing, -⟩⟩
        · exact ⟨.inl rfl, misled⟩
        · exact absurd ⟨hdr, ents, has⟩ missing
      · rintro ⟨-, misled⟩
        exact ⟨⟨mbr, reads⟩, .inl misled⟩
  | none =>
      have missing := parse_eq_none.mp first
      have straight : ¬ MisleadsAt device target.sectorSize.toNat 1 slice.toNat := by
        rintro ⟨hdr, ents, has, -⟩
        exact missing ⟨hdr, ents, has⟩
      rw [Option.isSome_none, if_neg Bool.false_ne_true]
      constructor
      · rintro ⟨-, misled | ⟨-, many, misled⟩⟩
        · exact absurd misled straight
        · exact ⟨.inr many, misled⟩
      · rintro ⟨one | many, misled⟩
        · rw [one] at misled
          exact absurd misled straight
        · exact ⟨⟨mbr, reads⟩, .inr ⟨missing, many, misled⟩⟩

/-- The header that the reader goes by is at a place of 64 bits. -/
theorem takenLba_place (least : 512 ≤ target.sectorSize.toNat) (most : target.sectorSize.toNat ≤ 4096) :
    takenLba target device slice * target.sectorSize.toNat < 2 ^ 64 := by
  unfold takenLba
  split
  · omega
  · have whole : totalLbas target * target.sectorSize.toNat ≤ target.devBytes.toNat :=
      Nat.div_mul_le_self _ _
    have less := Nat.mul_le_mul_right target.sectorSize.toNat (Nat.sub_le (totalLbas target) 1)
    have wide := target.devBytes.isLt
    omega

/-- On every disk, for every sector size and slice, both readers stay inside their buffers;
what they report of a table is exact if and only if the table does not wrap. -/
theorem gptReader_exact_iff (target : Target) (opened : Option Device) (slice : Int)
    (device : Device) (secSz hdrLba index : Nat) :
    (512 ≤ secSz → secSz ≤ 4096 → 0 < index →
      (ParseExact device secSz hdrLba index ↔ ¬ MisleadsAt device secSz hdrLba index)) ∧
    (OffsetExact target slice opened ↔ ∀ device, opened = some device →
      ¬ Misleads target device slice) := by
  refine ⟨parseExact_iff, ?_, ?_⟩
  · rintro ⟨-, exact⟩ disk rfl misled
    obtain ⟨mbr, reads⟩ := misled.1
    have positive := reads.positive
    obtain ⟨consulted, wrong⟩ := (misleads_iff reads).mp misled
    refine (answers_exact_iff (by omega)).mp ?_ wrong
    intro start count parsed
    have success := (offset_eq_some reads).mpr ⟨consulted, parsed⟩
    obtain ⟨hdr, ents, -, range⟩ := exact disk mbr start count rfl reads.read reads.protective success
    exact ⟨hdr, ents, range⟩
  · intro straight
    refine ⟨checkedOffset_ok target opened slice, ?_⟩
    rintro disk mbr start count rfl read protective success
    have reads := readsGpt_of_success read protective success
    have positive := reads.positive
    obtain ⟨consulted, parsed⟩ := (offset_eq_some reads).mp success
    have right : ¬ MisleadsAt disk target.sectorSize.toNat (takenLba target disk slice)
        slice.toNat := by
      intro wrong
      exact straight disk rfl ((misleads_iff reads).mpr ⟨consulted, wrong⟩)
    obtain ⟨hdr, ents, range⟩ := (answers_exact_iff (by omega)).mpr right start count parsed
    have header := gptHeaderAt_read range.table.header
    rw [Nat.mod_eq_of_lt (takenLba_place reads.least reads.most)] at header
    exact ⟨hdr, ents, header, range⟩

/-- A disk whose header puts the entry array at sector 2 ^ 55 + 2, and an array at sector 2. -/
def farArrayDisk : Device where
  size := 4096
  bytes := zeros.put 450 [0xEE]
    |>.put 510 [0x55, 0xAA]
    |>.put 512 efiPart
    |>.put (512 + 12) (leBytes 4 92)
    |>.put (512 + 16) (leBytes 4 3259346588)
    |>.put (512 + 72) (leBytes 8 (2 ^ 55 + 2))
    |>.put (512 + 80) (leBytes 4 1)
    |>.put (512 + 84) (leBytes 4 128)
    |>.put (512 + 88) (leBytes 4 4260424784)
    |>.put 1024 [1]
    |>.put (1024 + 32) (leBytes 8 1)
    |>.put (1024 + 40) (leBytes 8 5)

def farArrayTarget : Target where
  dst := "/tmp/disk.img"
  checkTarget := none
  devBytes := 4096
  sectorSize := 512

/-- The reader succeeds with what it finds at sector 2. -/
theorem farArray_found_elsewhere :
    rufuxPartOffsetSectors farArrayTarget (some farArrayDisk) 1 = some (1, 5) ∧
      ¬ OffsetExact farArrayTarget 1 (some farArrayDisk) := by
  have success : rufuxPartOffsetSectors farArrayTarget (some farArrayDisk) 1 = some (1, 5) := by
    decide +kernel
  have reach (off : Nat) (inside : off + 512 ≤ 4096) : farArrayDisk.pread off 512 =
      some fun index => farArrayDisk.bytes (off + index) := if_pos ⟨inside, by omega⟩
  have protective : hasProtective (fun index => farArrayDisk.bytes (0 + index)) = true := by
    decide +kernel
  have taken : takenLba farArrayTarget farArrayDisk 1 = 1 := by decide +kernel
  refine ⟨success, ?_⟩
  intro exact
  obtain ⟨hdr, ents, read, range⟩ :=
    exact.exact farArrayDisk _ 1 5 rfl (reach 0 (by decide)) protective success
  rw [taken] at read
  cases (reach (1 * 512) (by decide)).symm.trans read
  have near := range.table.near
  have far : le (fun index => farArrayDisk.bytes (1 * 512 + index)) 72 8 = 2 ^ 55 + 2 := by
    decide +kernel
  rw [far] at near
  exact absurd near (by decide)

end Offsets

end Rufux.Macos
