import Rufux.Macos.BiosBoot

/-!
The installer on a disk that partitioning has laid out: where it finds room for the core
image, what its writes leave alone, and where the pointers in the images lead.
-/

namespace Rufux.Macos

open Library ByteMap

section Areas

variable {target : Target} {opts : PartOpts} {partRun : PartRun} {device after disk : Device}
  {plan : Plan} {bnode : String}

/-- Where a core image may lie: the gap before the first partition of a DOS disk, the BIOS
boot partition of a GPT disk. -/
def Plan.CoreArea (plan : Plan) (isGpt : Bool) (low high : Nat) : Prop :=
  if isGpt then
    ∃ part ∈ plan.parts, part.gptType = guidBiosBoot ∧ low = part.firstLba * plan.secSz ∧
      high = (part.lastLba + 1) * plan.secSz
  else low = 512 ∧ ∃ part, plan.parts.head? = some part ∧ high = part.firstLba * plan.secSz

theorem installSectorSize_planned (run : BootRun target) (sound : plan.Sound target opts.isGpt) :
    installSectorSize target run.isDev = plan.secSz := by
  have sizes := sound.sizes
  rw [sound.size] at sizes ⊢
  unfold installSectorSize
  cases dev : run.isDev with
  | true =>
      dsimp only
      rw [if_pos rfl, if_neg (by omega)]
  | false =>
      have regular := congrArg BitVec.toNat (run.regular dev)
      rw [regular]
      rfl

/-- The first partition of a DOS disk is the one that starts first. -/
theorem firstPartLba_listed {mbr : ByteMap} (on : ListedIn plan mbr)
    (sound : plan.Sound target opts.isGpt) {head : PartSpec}
    (first : plan.parts.head? = some head) : firstPartLba mbr = head.firstLba := by
  obtain ⟨rest, shape⟩ : ∃ rest, plan.parts = head :: rest := by
    cases parts : plan.parts with
    | nil =>
        rw [parts] at first
        cases first
    | cons part rest =>
        rw [parts] at first
        cases first
        exact ⟨rest, rfl⟩
  have ascending := sound.tiles.ascending
  rw [shape, List.pairwise_cons] at ascending
  have headLbas := sound.lbas head (by rw [shape]; exact List.mem_cons_self)
  have start : plan.parts[0]? = some head := by rw [shape]; rfl
  obtain ⟨type, typed, _, lba, count⟩ := on.listed 0 head (by omega) start
  have found : firstPartStep mbr 0 0 = head.firstLba := by
    rw [firstPartStep, type, lba, count, if_pos ⟨typed, Nat.succ_ne_zero _, .inl rfl⟩]
  have kept : ∀ index, 1 ≤ index → index < 4 →
      firstPartStep mbr head.firstLba index = head.firstLba := by
    intro index lower upper
    apply if_neg
    rintro ⟨present, _, before⟩
    cases listed : plan.parts[index]? with
    | none => exact present (on.unlisted index upper listed)
    | some part =>
        obtain ⟨_, _, _, same, _⟩ := on.listed index part upper listed
        rw [same] at before
        obtain ⟨place, rfl⟩ := Nat.exists_eq_add_of_le' lower
        rw [shape, List.getElem?_cons_succ] at listed
        have follows := ascending.1 part (List.mem_of_getElem? listed)
        omega
  change firstPartStep mbr (firstPartStep mbr (firstPartStep mbr (firstPartStep mbr 0 0) 1) 2) 3 = _
  rw [found, kept 1 (by omega) (by omega), kept 2 (by omega) (by omega),
    kept 3 (by omega) (by omega)]

/-- In the written array the search finds a BIOS boot partition if there is one. -/
theorem biosBootEntry_written {ents : ByteMap} {isGpt : Bool} (sound : plan.Sound target isGpt)
    (same : ∀ index, index < entryArrayBytes →
      ents index = gptEntries partRun.chance plan.parts index) :
    match biosBootEntry ents entryArrayBytes 128 with
    | some place => ∃ part, plan.parts[place]? = some part ∧ part.gptType = guidBiosBoot ∧
        ents.le (place * 128 + 32) 8 = part.firstLba ∧ ents.le (place * 128 + 40) 8 = part.lastLba
    | none => ∀ part ∈ plan.parts, part.gptType ≠ guidBiosBoot := by
  have guids : ∀ part ∈ plan.parts, part.gptType.length = 16 :=
    fun part member => (sound.guids part member).1
  have listed {place : Nat} (slot : place < 128) {part : PartSpec}
      (found : plan.parts[place]? = some part) :
      ents.get (place * 128) 16 = part.gptType ∧
        ents.le (place * 128 + 32) 8 = part.firstLba ∧
        ents.le (place * 128 + 40) 8 = part.lastLba := by
    have bound : (place + 1) * 128 ≤ entryArrayBytes := Nat.mul_le_mul_right 128 slot
    obtain ⟨_, order, last⟩ := sound.lbas part (List.mem_of_getElem? found)
    obtain ⟨type, first, last⟩ :=
      gptEntries_listed partRun.chance guids found (by omega) last
    rw [← type, ← first, ← last]
    exact ⟨get_congr fun inner inside => same _ (by omega),
      le_congr fun inner inside => same _ (by omega),
      le_congr fun inner inside => same _ (by omega)⟩
  have slots : entryArrayBytes / 128 = 128 := rfl
  unfold biosBootEntry
  rw [slots]
  cases found : (List.range 128).find? fun index => ents.get (index * 128) 16 = guidBiosBoot with
  | some place =>
      have slot := List.mem_range.mp (List.mem_of_find?_eq_some found)
      have type : ents.get (place * 128) 16 = guidBiosBoot := by
        simpa using List.find?_some found
      cases present : plan.parts[place]? with
      | some part =>
          obtain ⟨same, first, last⟩ := listed slot present
          exact ⟨part, present, same.symm.trans type, first, last⟩
      | none =>
          have beyond := List.getElem?_eq_none_iff.mp present
          have blank : (ents.get (place * 128) 16).head? = some 0 := by
            have bound : (place + 1) * 128 ≤ entryArrayBytes := Nat.mul_le_mul_right 128 slot
            rw [head?_get, same _ (by omega), gptEntries_unlisted guids (by omega)]
          rw [type] at blank
          cases blank
  | none =>
      intro part member type
      obtain ⟨place, bound, found'⟩ := List.getElem_of_mem member
      have few := sound.describes.2.1
      have present : plan.parts[place]? = some part := by
        rw [List.getElem?_eq_getElem bound, found']
      have absent := List.find?_eq_none.mp found place (List.mem_range.mpr (by omega))
      rw [(listed (by omega) present).1, type] at absent
      exact absent (decide_eq_true rfl)

section Kept

variable (kept : TablesKept opts plan after disk)
  (written : Written target opts partRun device plan after) (sound : plan.Sound target opts.isGpt)

include kept written sound

theorem listedIn_kept (dos : opts.isGpt = false) {before : ByteMap}
    (same : ∀ index, before index = disk.bytes index) : ListedIn plan before := by
  have first := TablesKept.first kept written sound
  rw [dos] at first
  apply listedIn_written sound dos
  intro index lower upper
  rw [same]
  exact first index lower upper

theorem isGptMbr_kept {before : ByteMap} (same : ∀ index, before index = disk.bytes index) :
    isGptMbr before = opts.isGpt := by
  cases scheme : opts.isGpt with
  | true =>
      have first := TablesKept.first kept written sound
      rw [isGptMbr, same, first _ (by omega) (by omega), scheme]
      exact decide_eq_true firstSector_protective
  | false =>
      have on := listedIn_kept kept written sound scheme same
      exact decide_eq_false (on.ordinary (show 0 < 4 by omega))

variable (bnode)

/-- What `gpt_bios_boot` finds on a GPT disk: the BIOS boot partition of the plan, in sectors of
512 bytes, if the plan has one. -/
theorem gptBiosBoot_kept (gpt : opts.isGpt = true) :
    (∃ part ∈ plan.parts, part.gptType = guidBiosBoot ∧ gptBiosBoot bnode disk plan.secSz =
        .ok (part.firstLba, part.count * (plan.secSz / 512))) ∨
      (∀ part ∈ plan.parts, part.gptType ≠ guidBiosBoot) ∧
        ∃ why, gptBiosBoot bnode disk plan.secSz = .error why := by
  have on := TablesKept.primaryOn kept written sound gpt
  have sector := sound.figures.sector
  have start : 1 * plan.secSz = plan.secSz := Nat.one_mul _
  have headerReach := on.headerReach
  have header := on.header
  rw [start] at headerReach header
  have reach : disk.Reaches plan.secSz 512 :=
    ⟨Nat.le_trans (Nat.add_le_add_left sector.1 _) headerReach.1, headerReach.2⟩
  have read : disk.pread plan.secSz 512 = some fun index => disk.bytes (plan.secSz + index) :=
    if_pos reach
  have fields : HeaderFields (fun index => disk.bytes (plan.secSz + index)) 1 plan.disk.lastLba 2
      (entriesChecksum partRun.chance plan.parts) :=
    (primaryHeader_fields sound.headers.1).congr fun index bound _ => header index (by omega)
  have word : word64 (2 * plan.secSz) = 2 * plan.secSz := Nat.mod_eq_of_lt (by omega)
  have total : min (128 * 128) (2 ^ 20) = entryArrayBytes := rfl
  have array : disk.pread (2 * plan.secSz) entryArrayBytes =
      some fun index => disk.bytes (2 * plan.secSz + index) := if_pos on.reach
  have entries := biosBootEntry_written sound on.entries
  unfold gptBiosBoot
  rw [read]
  simp only [fields.signature, fields.entries, fields.count, fields.width, word, total,
    -Nat.reduceMul]
  rw [if_neg (by simp), if_neg (by omega), array, Option.bind_eq_bind, Option.bind_some]
  cases found : biosBootEntry (fun index => disk.bytes (2 * plan.secSz + index)) entryArrayBytes 128 with
  | some place =>
      rw [found] at entries
      obtain ⟨part, listed, type, first, last⟩ := entries
      have member := List.mem_of_getElem? listed
      obtain ⟨positive, order, _⟩ := sound.lbas part member
      have inside := (sound.tiles.each part member).2.2.2
      have lbas := sound.disk.word
      have ratio : plan.secSz / 512 ≤ 8 := by omega
      have small : part.lastLba - part.firstLba + 1 ≤ plan.disk.totalLbas := by omega
      have scaled := Nat.mul_le_mul small ratio
      refine .inl ⟨part, member, type, ?_⟩
      rw [Option.bind_eq_bind, Option.bind_some, first, last, if_neg (by omega)]
      simp only [PartSpec.count, word64]
      rw [Nat.mod_eq_of_lt (show part.lastLba - part.firstLba + 1 < 2 ^ 64 by omega),
        Nat.mod_eq_of_lt (by omega)]
  | none =>
      rw [found] at entries
      exact .inr ⟨entries, _, rfl⟩

/-- Where the installer finds room for a core image, that is a core area of the plan. -/
theorem coreArea_kept {before : ByteMap} (same : ∀ index, before index = disk.bytes index)
    {coreLba avail : Nat} (found : coreArea bnode disk plan.secSz before = .ok (coreLba, avail)) :
    plan.CoreArea opts.isGpt (coreLba * 512) ((coreLba + avail) * 512) := by
  have units : plan.secSz / 512 * 512 = plan.secSz := by
    rcases sound.sizes with same | same | same | same <;> rw [same]
  rw [coreArea, isGptMbr_kept kept written sound same] at found
  cases scheme : opts.isGpt with
  | true =>
      rw [scheme, if_pos rfl] at found
      rcases gptBiosBoot_kept bnode kept written sound scheme with
        ⟨part, member, type, area⟩ | ⟨_, why, refused⟩
      · rw [area] at found
        have lbas := sound.disk.word
        obtain ⟨_, order, last⟩ := (sound.tiles.each part member).2
        have ratio : plan.secSz / 512 ≤ 8 := by
          have := sound.figures.sector
          omega
        have scaled := Nat.mul_le_mul (show part.firstLba ≤ plan.disk.totalLbas by omega) ratio
        have word : word64 (part.firstLba * (plan.secSz / 512)) = part.firstLba * (plan.secSz / 512) :=
          Nat.mod_eq_of_lt (by omega)
        simp only [Except.map, word, Except.ok.injEq, Prod.mk.injEq] at found
        obtain ⟨rfl, rfl⟩ := found
        have count : part.firstLba + part.count = part.lastLba + 1 := by
          rw [PartSpec.count]
          omega
        refine ⟨part, member, type, ?_, ?_⟩
        · rw [Nat.mul_assoc, units]
        · rw [← Nat.add_mul, count, Nat.mul_assoc, units]
      · rw [refused] at found
        cases found
  | false =>
      rw [scheme, if_neg Bool.false_ne_true] at found
      obtain ⟨head, rest, shape⟩ := List.exists_cons_of_ne_nil sound.describes.1
      have first : plan.parts.head? = some head := by rw [shape]; rfl
      have start := firstPartLba_listed (listedIn_kept kept written sound scheme same) sound first
      simp only [start] at found
      split at found
      · cases found
      split at found
      · cases found
      cases found
      refine ⟨rfl, head, first, ?_⟩
      have whole : 1 + (head.firstLba * (plan.secSz / 512) - 1) =
          head.firstLba * (plan.secSz / 512) := by omega
      rw [whole, Nat.mul_assoc, units]

end Kept

/-- A core area is inside the disk, and its end is the end of a device sector, as its start is
but for the gap of a DOS disk. -/
theorem Plan.CoreArea.bounds {low high : Nat} (sound : plan.Sound target opts.isGpt)
    (area : plan.CoreArea opts.isGpt low high) :
    plan.secSz ∣ high ∧ (plan.secSz ∣ low ∨ low = 512) ∧ low ≤ high ∧ 512 ≤ low ∧
      high ≤ plan.disk.totalLbas * plan.secSz := by
  cases scheme : opts.isGpt with
  | true =>
      rw [scheme] at area
      obtain ⟨part, member, _, rfl, rfl⟩ := area
      have start := sound.start member
      obtain ⟨_, _, order, last⟩ := sound.tiles.each part member
      exact ⟨Nat.dvd_mul_left _ _, .inl (Nat.dvd_mul_left _ _),
        Nat.mul_le_mul_right _ (by omega), by omega, Nat.mul_le_mul_right _ last⟩
  | false =>
      rw [scheme] at area
      obtain ⟨rfl, head, first, rfl⟩ := area
      have member := List.mem_of_head? first
      have start := sound.start member
      obtain ⟨_, _, order, last⟩ := sound.tiles.each head member
      exact ⟨Nat.dvd_mul_left _ _, .inr rfl, by omega, Nat.le_refl 512,
        Nat.mul_le_mul_right _ (by omega)⟩

end Areas

section Spans

theorem le_roundUp (length : Nat) {unit : Nat} (positive : 0 < unit) :
    length ≤ (length + unit - 1) / unit * unit := by
  have split := Nat.div_add_mod (length + unit - 1) unit
  have small := Nat.mod_lt (length + unit - 1) positive
  rw [Nat.mul_comm] at split
  omega

theorem roundUp_le {length bound unit : Nat} (positive : 0 < unit) (inside : length ≤ bound)
    (whole : unit ∣ bound) : (length + unit - 1) / unit * unit ≤ bound := by
  obtain ⟨units, rfl⟩ := whole
  rw [Nat.mul_comm unit units]
  apply Nat.mul_le_mul_right
  apply Nat.le_of_lt_succ
  rw [Nat.div_lt_iff_lt_mul positive, Nat.succ_mul, Nat.mul_comm units unit]
  omega

/-- The sectors written with a core image: they start at the image, or at the first sector of
the disk where the image starts inside it, and they end inside the core area. -/
theorem coreSpan_figures {secSz coreLba high : Nat} {core : List UInt8}
    (sizes : secSz = 512 ∨ secSz = 1024 ∨ secSz = 2048 ∨ secSz = 4096)
    (word : coreLba * 512 < 2 ^ 64) (fits : coreLba * 512 + coreSectors core * 512 ≤ high)
    (whole : secSz ∣ high) (start : secSz ∣ coreLba * 512 ∨ coreLba * 512 = 512) :
    (coreSpan secSz coreLba core).aligned + (coreSpan secSz coreLba core).lead = coreLba * 512 ∧
      ((coreSpan secSz coreLba core).lead = 0 ∨
        (coreSpan secSz coreLba core).aligned = 0 ∧ (coreSpan secSz coreLba core).lead = 512) ∧
      (coreSpan secSz coreLba core).lead + (coreSpan secSz coreLba core).raw ≤
        (coreSpan secSz coreLba core).total ∧
      (coreSpan secSz coreLba core).raw = coreSectors core * 512 ∧
      (coreSpan secSz coreLba core).aligned + (coreSpan secSz coreLba core).total ≤ high := by
  have positive : 0 < secSz := by omega
  have exact_ : word64 (coreLba * 512) = coreLba * 512 := Nat.mod_eq_of_lt word
  simp only [coreSpan, exact_]
  have below := Nat.div_mul_le_self (coreLba * 512) secSz
  have alignedWhole : secSz ∣ coreLba * 512 / secSz * secSz := Nat.dvd_mul_left _ _
  have place : coreLba * 512 - coreLba * 512 / secSz * secSz = 0 ∨
      coreLba * 512 / secSz * secSz = 0 ∧
        coreLba * 512 - coreLba * 512 / secSz * secSz = 512 := by
    rcases start with divides | first
    · rw [Nat.div_mul_cancel divides]
      omega
    · rw [first]
      rcases sizes with rfl | rfl | rfl | rfl <;> omega
  refine ⟨by omega, place, le_roundUp _ positive, trivial, ?_⟩
  generalize coreLba * 512 / secSz * secSz = aligned at *
  obtain ⟨units, rfl⟩ := alignedWhole
  obtain ⟨last, rfl⟩ := whole
  have room : secSz * units ≤ secSz * last := by omega
  have inside : coreLba * 512 - secSz * units + coreSectors core * 512 ≤
      secSz * last - secSz * units := by omega
  have divides : secSz ∣ secSz * last - secSz * units :=
    Nat.dvd_sub (Nat.dvd_mul_right _ _) (Nat.dvd_mul_right _ _)
  have rounded := roundUp_le positive inside divides
  omega

end Spans

section Writes

variable {before buffer : ByteMap} {image : List UInt8} {coreLba secSz index : Nat} {span : Span}

/-- The patched first sector keeps everything from the disk signature on. -/
theorem newMbr_label (label : 440 ≤ index) : newMbr before image coreLba index = before index := by
  have code := List.length_take_le 440 image
  have pointer : 0x5c + (leBytes 8 coreLba).length ≤ index := by
    rw [length_leBytes]
    omega
  rw [newMbr, put_outside (.inr ?_), put_outside (.inr ?_), put_outside (.inr pointer),
    put_outside (.inr (by omega))]
  · exact Nat.le_trans (by decide) label
  · exact Nat.le_trans (by decide) label

/-- What the writes put over a byte from the disk signature on, outside the span of the core
image, is what stands there. -/
theorem bootWrites_keep (label : 440 ≤ index)
    (lead : span.lead = 0 ∨ span.aligned = 0 ∧ span.lead = 512)
    (outside : ¬ (span.aligned + span.lead ≤ index ∧ index < span.aligned + span.total)) :
    ∀ step ∈ bootWrites secSz (newMbr before image coreLba) buffer span,
      step.write.Covers index → step.write.source (index - step.write.off) = before index := by
  intro step member covers
  unfold bootWrites at member
  split at member
  · rename_i merged
    rcases List.mem_cons.mp member with rfl | later
    · obtain ⟨_, inside⟩ := covers
      dsimp only at inside ⊢
      have first : index < 512 := by omega
      rw [Nat.sub_zero, place_inside (Nat.zero_le _) (by omega), Nat.sub_zero, newMbr_label label]
    · cases later
  · rename_i apart
    have whole : span.lead = 0 := by omega
    rcases List.mem_cons.mp member with rfl | later
    · dsimp only
      rw [Nat.sub_zero, newMbr_label label]
    · rcases List.mem_cons.mp later with rfl | rest
      · obtain ⟨lower, upper⟩ := covers
        dsimp only at lower upper
        omega
      · cases rest

/-- What the writes leave when they succeed: the boot code, and the core image in its place. -/
theorem bootWrites_done (bytes mbr buffer : ByteMap) (least : 512 ≤ secSz)
    (lead : span.lead = 0 ∧ 512 ≤ span.aligned ∨ span.aligned = 0 ∧ span.lead = 512)
    (inside : span.lead + span.raw ≤ span.total) :
    (∀ index, index < 440 → bytes.applyAll
        ((bootWrites secSz mbr buffer span).map TableWrite.write) index = mbr index) ∧
      ∀ inner, inner < span.raw → bytes.applyAll
        ((bootWrites secSz mbr buffer span).map TableWrite.write)
          (span.aligned + span.lead + inner) = buffer (span.lead + inner) := by
  unfold bootWrites
  rcases lead with ⟨whole, apart⟩ | ⟨first, started⟩
  · have separate : ¬ (span.aligned = 0 ∧ 512 ≤ span.lead) := by omega
    rw [if_neg separate]
    change (∀ index, index < 440 → ((bytes.place 0 mbr secSz).place span.aligned buffer
        span.total) index = mbr index) ∧
      ∀ inner, inner < span.raw → ((bytes.place 0 mbr secSz).place span.aligned buffer
        span.total) (span.aligned + span.lead + inner) = buffer (span.lead + inner)
    constructor
    · intro index code
      rw [place_outside (by omega), place_inside (Nat.zero_le _) (by omega), Nat.sub_zero]
    · intro inner bound
      rw [place_inside (by omega) (by omega), Nat.add_assoc, Nat.add_sub_cancel_left]
  · have merged : span.aligned = 0 ∧ 512 ≤ span.lead := by omega
    rw [if_pos merged]
    change (∀ index, index < 440 → (bytes.place 0 (buffer.place 0 mbr 512) span.total) index =
        mbr index) ∧
      ∀ inner, inner < span.raw → (bytes.place 0 (buffer.place 0 mbr 512) span.total)
        (span.aligned + span.lead + inner) = buffer (span.lead + inner)
    constructor
    · intro index code
      rw [place_inside (Nat.zero_le _) (by omega), Nat.sub_zero,
        place_inside (Nat.zero_le _) (by omega), Nat.sub_zero]
    · intro inner bound
      rw [place_inside (Nat.zero_le _) (by omega), Nat.sub_zero, place_outside (by omega), first,
        Nat.zero_add]

end Writes

section Install

/-- One of two parts ends before the other starts. -/
def PartSpec.Apart (first second : PartSpec) : Prop :=
  first.lastLba < second.firstLba ∨ second.lastLba < first.firstLba

instance : Std.Symm PartSpec.Apart := ⟨fun _ _ => Or.symm⟩

theorem apart_of_ascending {parts : List PartSpec}
    (ascending : parts.Pairwise fun before after => before.lastLba < after.firstLba)
    {first second : PartSpec} (one : first ∈ parts) (other : second ∈ parts)
    (differs : first ≠ second) : first.Apart second := by
  have apart : parts.Pairwise PartSpec.Apart := ascending.imp Or.inl
  exact apart.forall one other differs

variable {target : Target} {opts : PartOpts} {partRun : PartRun} {run : BootRun target}
  {device after disk left : Device} {plan : Plan} {answer : Except String String}

/-- The writes that a prepared installation makes. -/
def BootPlan.writes (boot : BootPlan) (run : BootRun target) (disk : Device) : List TableWrite :=
  bootWrites boot.secSz (newMbr boot.before run.bootImg boot.coreLba)
    (coreBuf disk boot.coreLba run.coreImg (coreSpan boot.secSz boot.coreLba run.coreImg))
    (coreSpan boot.secSz boot.coreLba run.coreImg)

/-- The installer refuses before its first write, or the writes decide what it leaves. -/
theorem install_cases (installed : rufuxWindowsBiosInstall target run disk = (answer, left)) :
    (∃ why, answer = .error why ∧ left = disk) ∨
      ∃ boot outcome, Decided target run disk boot ∧
        performAll run.refuses disk 0 (boot.writes run disk) = (outcome, left) ∧
        ∀ line, answer = .ok line → outcome = .ok () := by
  unfold rufuxWindowsBiosInstall at installed
  dsimp only at installed
  split at installed
  · rename_i why _
    cases installed
    exact .inl ⟨why, rfl, rfl⟩
  rename_i boot prepared
  refine .inr ⟨boot, ?_⟩
  split at installed
  · rename_i why _ performed
    cases installed
    exact ⟨_, prepareBoot_ok prepared, performed, nofun⟩
  rename_i performed
  split at installed
  · cases installed
    exact ⟨_, prepareBoot_ok prepared, performed, fun _ _ => rfl⟩
  split at installed
  · cases installed
    exact ⟨_, prepareBoot_ok prepared, performed, fun _ _ => rfl⟩
  · cases installed
    exact ⟨_, prepareBoot_ok prepared, performed, fun _ _ => rfl⟩

/-- The images are of a size that the installer takes, and the disk has room for the core
image. -/
def BootRun.Fits (run : BootRun target) (plan : Plan) (isGpt : Bool) : Prop :=
  512 ≤ run.bootImg.length ∧ 1024 ≤ run.coreImg.length ∧ run.coreImg.length ≤ 1024 * 1024 ∧
    ∃ low high, plan.CoreArea isGpt low high ∧ low + coreSectors run.coreImg * 512 ≤ high

section Kept

variable (kept : TablesKept opts plan after disk)
  (written : Written target opts partRun device plan after) (sound : plan.Sound target opts.isGpt)

include kept written sound

/-- Where a prepared installation puts the core image. -/
theorem decided_area {boot : BootPlan} (decided : Decided target run disk boot) :
    boot.secSz = plan.secSz ∧ boot.isGpt = opts.isGpt ∧ ∃ high,
      plan.CoreArea opts.isGpt (boot.coreLba * 512) high ∧
      boot.coreLba * 512 + coreSectors run.coreImg * 512 ≤ high := by
  have secSz := decided.secSz.trans (installSectorSize_planned run sound)
  obtain ⟨avail, area, fits⟩ := decided.area
  rw [secSz] at area
  refine ⟨secSz, ?_, _, coreArea_kept _ kept written sound decided.before area, ?_⟩
  · rw [decided.isGpt, isGptMbr_kept kept written sound decided.before]
  · rw [← Nat.add_mul]
    exact Nat.mul_le_mul_right _ (by omega)

theorem decided_span {boot : BootPlan} (decided : Decided target run disk boot) {high : Nat}
    (area : plan.CoreArea opts.isGpt (boot.coreLba * 512) high)
    (fits : boot.coreLba * 512 + coreSectors run.coreImg * 512 ≤ high) :
    (coreSpan boot.secSz boot.coreLba run.coreImg).aligned +
        (coreSpan boot.secSz boot.coreLba run.coreImg).lead = boot.coreLba * 512 ∧
      ((coreSpan boot.secSz boot.coreLba run.coreImg).lead = 0 ∨
        (coreSpan boot.secSz boot.coreLba run.coreImg).aligned = 0 ∧
          (coreSpan boot.secSz boot.coreLba run.coreImg).lead = 512) ∧
      (coreSpan boot.secSz boot.coreLba run.coreImg).lead +
          (coreSpan boot.secSz boot.coreLba run.coreImg).raw ≤
        (coreSpan boot.secSz boot.coreLba run.coreImg).total ∧
      (coreSpan boot.secSz boot.coreLba run.coreImg).raw = coreSectors run.coreImg * 512 ∧
      (coreSpan boot.secSz boot.coreLba run.coreImg).aligned +
        (coreSpan boot.secSz boot.coreLba run.coreImg).total ≤ high := by
  have secSz := (decided_area kept written sound decided).1
  obtain ⟨whole, start, _, _, inside⟩ := area.bounds sound
  have word := target.devBytes.isLt
  have device := sound.figures.inside
  rw [secSz]
  exact coreSpan_figures sound.sizes (by omega) fits whole start

/-- From the disk signature on, the two disks differ in a core area only. -/
def OutsideCore (opts : PartOpts) (plan : Plan) (disk left : Device) : Prop :=
  left.size = disk.size ∧ ∀ index, 440 ≤ index →
    (∀ low high, plan.CoreArea opts.isGpt low high → ¬ (low ≤ index ∧ index < high)) →
    left.bytes index = disk.bytes index

theorem decided_outside {boot : BootPlan} {outcome : Except String Unit}
    (decided : Decided target run disk boot)
    (performed : performAll run.refuses disk 0 (boot.writes run disk) = (outcome, left)) :
    OutsideCore opts plan disk left := by
  obtain ⟨_, _, high, area, fits⟩ := decided_area kept written sound decided
  obtain ⟨start, lead, _, _, inside⟩ := decided_span kept written sound decided area fits
  have keep (index : Nat) (label : 440 ≤ index)
      (outside : ¬ (boot.coreLba * 512 ≤ index ∧ index < high)) :
      left.size = disk.size ∧ left.bytes index = disk.bytes index := by
    refine performAll_kept (fun step member covers => ?_) performed
    rw [← decided.before]
    exact bootWrites_keep label lead (by omega) step member covers
  exact ⟨(keep (440 + high) (by omega) (by omega)).1,
    fun index label outside => (keep index label (outside _ _ area)).2⟩

theorem install_outside (installed : rufuxWindowsBiosInstall target run disk = (answer, left)) :
    OutsideCore opts plan disk left := by
  rcases install_cases installed with ⟨_, _, rfl⟩ | ⟨boot, outcome, decided, performed, _⟩
  · exact ⟨rfl, fun _ _ _ => rfl⟩
  · exact decided_outside kept written sound decided performed

omit kept written in
/-- A core area is apart from the tables. -/
theorem Plan.CoreArea.tables {low high : Nat} (area : plan.CoreArea opts.isGpt low high)
    (gpt : opts.isGpt = true) : 2 * plan.secSz + entryArrayBytes ≤ low ∧
      high ≤ backupEntriesLba plan.disk * plan.secSz := by
  rw [gpt] at area
  obtain ⟨part, member, _, rfl, rfl⟩ := area
  have fits := sound.fits part member
  rw [Fits, if_pos gpt] at fits
  have firstUsable := sound.disk.firstUsable
  have lastUsable := sound.disk.lastUsable
  have array := sound.figures.array
  constructor
  · rw [← array, ← Nat.add_mul, ← firstUsable]
    exact Nat.mul_le_mul_right _ fits.1
  · apply Nat.mul_le_mul_right
    rw [backupEntriesLba]
    omega

omit kept written in
/-- A core area is apart from every partition but the BIOS boot partition. -/
theorem Plan.CoreArea.parts {low high : Nat} (area : plan.CoreArea opts.isGpt low high)
    {part : PartSpec} (member : part ∈ plan.parts)
    (other : opts.isGpt = true → part.gptType ≠ guidBiosBoot) :
    high ≤ part.firstLba * plan.secSz ∨ (part.lastLba + 1) * plan.secSz ≤ low := by
  have ascending := sound.tiles.ascending
  cases scheme : opts.isGpt with
  | true =>
      rw [scheme] at area
      obtain ⟨bios, listed, type, rfl, rfl⟩ := area
      have differs : bios ≠ part := by
        rintro rfl
        exact other scheme type
      rcases apart_of_ascending ascending listed member differs with before | behind
      · exact .inl (Nat.mul_le_mul_right _ before)
      · exact .inr (Nat.mul_le_mul_right _ behind)
  | false =>
      rw [scheme] at area
      obtain ⟨rfl, head, first, rfl⟩ := area
      left
      apply Nat.mul_le_mul_right
      cases shape : plan.parts with
      | nil =>
          rw [shape] at member
          cases member
      | cons top rest =>
          rw [shape] at first member ascending
          cases first
          rcases List.mem_cons.mp member with rfl | later
          · exact Nat.le_refl _
          · have order := (sound.tiles.each head (by rw [shape]; exact List.mem_cons_self)).2.2.1
            have follows := (List.pairwise_cons.mp ascending).1 part later
            omega

omit written in
/-- So the tables stay as they were. -/
theorem OutsideCore.tables (core : OutsideCore opts plan disk left) :
    TablesKept opts plan after left := by
  obtain ⟨size, outside⟩ := core
  have figures := sound.figures
  refine ⟨size.trans kept.size, ?_, ?_, ?_⟩
  · intro index lower upper
    rw [outside index lower, kept.label index lower upper]
    intro low high area inside
    have bounds := area.bounds sound
    omega
  · intro gpt index lower upper
    have sector := figures.sector
    rw [outside index (by omega), kept.primary gpt index lower upper]
    intro low high area inside
    have tables := area.tables sound gpt
    omega
  · intro gpt index lower upper
    have room := figures.room
    have backup := figures.backup
    have last := figures.last
    rw [outside index (by omega), kept.backup gpt index lower upper]
    intro low high area inside
    have tables := area.tables sound gpt
    omega

theorem install_kept (installed : rufuxWindowsBiosInstall target run disk = (answer, left)) :
    TablesKept opts plan after left :=
  OutsideCore.tables kept sound (install_outside kept written sound installed)

end Kept

end Install

section Patches

variable {buffer before : ByteMap} {image : List UInt8} {off coreLba sectors index : Nat}

theorem patchCore_outside (outside : index < off + 488 ∨ off + 512 ≤ index) :
    patchCore buffer off coreLba sectors index = buffer index := by
  have segment := length_leBytes 2 0x0820
  have count := length_leBytes 2 (sectors - 1)
  have start := length_leBytes 8 (coreLba + 1)
  rw [patchCore, put_outside (by omega), put_outside (by omega), put_outside (by omega),
    place_outside (by omega)]

theorem patchCore_end (inner : Nat) (bound : inner < 12) :
    patchCore buffer off coreLba sectors (off + 488 + inner) = 0 := by
  rw [patchCore, put_outside (by omega), put_outside (by omega), put_outside (by omega),
    place_inside (by omega) (by omega)]
  rfl

theorem patchCore_start (word : coreLba + 1 < 256 ^ 8) :
    (patchCore buffer off coreLba sectors).le (off + 500) 8 = coreLba + 1 := by
  rw [patchCore, le_put_outside (.inl (by omega)), le_put_outside (.inl (by omega)), le_put word]

theorem patchCore_count (word : sectors - 1 < 256 ^ 2) :
    (patchCore buffer off coreLba sectors).le (off + 508) 2 = sectors - 1 := by
  rw [patchCore, le_put_outside (.inl (by omega)), le_put word]

theorem newMbr_code (before_ : index < 0x5c) (whole : 512 ≤ image.length) :
    newMbr before image coreLba index = image.getD index 0 := by
  have code : (image.take 440).length = 440 := by
    rw [List.length_take]
    omega
  have start : 0 + index = index := Nat.zero_add index
  rw [newMbr, put_outside (by omega), put_outside (by omega), put_outside (by omega)]
  have inside : before.put 0 (image.take 440) (0 + index) = (image.take 440).getD index 0 :=
    put_inside (by omega)
  rw [start] at inside
  rw [inside, List.getD_eq_getElem?_getD, List.getD_eq_getElem?_getD,
    List.getElem?_take_of_lt (by omega)]

theorem newMbr_pointer (word : coreLba < 256 ^ 8) : (newMbr before image coreLba).le 0x5c 8 =
    coreLba := by
  rw [newMbr, le_put_outside (.inl (by omega)), le_put_outside (.inl (by omega)), le_put word]

end Patches

section Success

variable {target : Target} {opts : PartOpts} {partRun : PartRun} {run : BootRun target}
  {device after disk : Device} {plan : Plan}

/-- A run in which nothing refuses, with a boot image that begins like one. -/
structure BootRun.Smooth (run : BootRun target) : Prop where
  otherDisk : run.isBootDisk = false
  located : run.located = none
  statted : run.statted = none
  generated : run.generated = none
  opened : run.opened = none
  writes : ∀ index, run.refuses index = none
  synced : run.synced = none
  image : 512 ≤ run.bootImg.length
  signature : run.bootImg.getD 510 0 = 0x55 ∧ run.bootImg.getD 511 0 = 0xAA
  code : run.bootImg.getD 0 0 ≠ 0

variable (kept : TablesKept opts plan after disk)
  (written : Written target opts partRun device plan after) (sound : plan.Sound target opts.isGpt)

include kept written sound

theorem coreArea_succeeds {before : ByteMap} (same : ∀ index, before index = disk.bytes index)
    {bnode : String} (room : ∃ low high, plan.CoreArea opts.isGpt low high) :
    ∃ area, coreArea bnode disk plan.secSz before = .ok area := by
  obtain ⟨low, high, area⟩ := room
  rw [coreArea, isGptMbr_kept kept written sound same]
  cases scheme : opts.isGpt with
  | true =>
      rw [scheme] at area
      obtain ⟨part, member, type, _⟩ := area
      rcases gptBiosBoot_kept bnode kept written sound scheme with ⟨_, _, _, found⟩ | ⟨absent, _⟩
      · rw [if_pos rfl, found]
        exact ⟨_, rfl⟩
      · exact absurd type (absent part member)
  | false =>
      rw [scheme] at area
      obtain ⟨_, head, first, _⟩ := area
      have start := firstPartLba_listed (listedIn_kept kept written sound scheme same) sound first
      have member := List.mem_of_head? first
      have positive := (sound.lbas head member).1
      have mebibyte := sound.start member
      have ratio : plan.secSz / 512 * 512 = plan.secSz := by
        rcases sound.sizes with same | same | same | same <;> rw [same]
      have many : 1 < head.firstLba * (plan.secSz / 512) := by
        rw [← ratio, ← Nat.mul_assoc] at mebibyte
        omega
      rw [if_neg Bool.false_ne_true]
      dsimp only
      rw [start, if_neg (by omega), if_neg (by omega)]
      exact ⟨_, rfl⟩

theorem verifyBoot_succeeds {left : Device} {bnode : String} {before : ByteMap}
    (same : ∀ index, before index = disk.bytes index) (still : TablesKept opts plan after left)
    (code : left.bytes 0 ≠ 0) (room : ∃ low high, plan.CoreArea opts.isGpt low high) :
    verifyBoot bnode left plan.secSz opts.isGpt before = .ok () := by
  have read : left.pread 0 plan.secSz = some fun index => left.bytes (0 + index) :=
    if_pos (still.mbrReach written)
  obtain ⟨low, high⟩ := firstSector_signature partRun plan opts.isGpt
  have first := still.first written sound
  have label : before.get 440 72 = get (fun index => left.bytes (0 + index)) 440 72 := by
    apply get_congr
    intro inner bound
    rw [same, Nat.zero_add, kept.first written sound _ (by omega) (by omega),
      first _ (by omega) (by omega)]
  rw [verifyBoot, read]
  dsimp only
  rw [if_neg]
  · cases scheme : opts.isGpt with
    | false => rfl
    | true =>
        obtain ⟨start, stop, area⟩ := room
        rw [scheme] at area
        obtain ⟨part, member, type, _⟩ := area
        rw [if_pos rfl]
        rcases gptBiosBoot_kept bnode still written sound scheme with ⟨_, _, _, found⟩ | ⟨absent, _⟩
        · rw [found]
        · exact absurd type (absent part member)
  · rw [first _ (by omega) (by omega), first _ (by omega) (by omega), low, high]
    simp [label, code]

/-- Where nothing refuses and the images fit, the installation succeeds. -/
theorem install_succeeds (smooth : run.Smooth) (large : target.devBytes.toNat ≤ disk.size)
    (range : target.devBytes.toNat < 2 ^ 63) (least : 1024 ≤ run.coreImg.length)
    (most : run.coreImg.length ≤ 1024 * 1024)
    (room : ∃ low high, plan.CoreArea opts.isGpt low high)
    (fits : ∀ low high, plan.CoreArea opts.isGpt low high →
      low + coreSectors run.coreImg * 512 ≤ high) :
    ∃ left, rufuxWindowsBiosInstall target run disk = (.ok (installedLine opts.isGpt), left) := by
  have sector := installSectorSize_planned run sound
  have first := kept.first written sound
  obtain ⟨low, high⟩ := firstSector_signature partRun plan opts.isGpt
  have read : readMbr (rufuxMacosBlockNode target.dst) disk plan.secSz =
      .ok fun index => disk.bytes (0 + index) := by
    rw [readMbr, Device.pread, if_pos (kept.mbrReach written)]
    dsimp only
    rw [if_neg (offset_signature first)]
  have same : ∀ index, (fun index => disk.bytes (0 + index)) index = disk.bytes index :=
    fun index => congrArg disk.bytes (Nat.zero_add index)
  obtain ⟨⟨coreLba, avail⟩, area⟩ : ∃ area, coreArea (rufuxMacosBlockNode target.dst) disk
      plan.secSz (fun index => disk.bytes (0 + index)) = .ok area :=
    coreArea_succeeds kept written sound same room
  have found := coreArea_kept _ kept written sound same area
  have enough := fits _ _ found
  have target_ : checkBootTarget target run = .ok () := by
    rw [checkBootTarget, if_neg sound.named, smooth.otherDisk, if_neg Bool.false_ne_true,
      smooth.located, smooth.statted]
  have image : checkBootImg run.moddir run.bootImg = .ok () := by
    rw [checkBootImg, smooth.signature.1, smooth.signature.2, if_neg]
    have := smooth.image
    simp
    omega
  have core : checkCore (isGptMbr fun index => disk.bytes (0 + index)) run.coreImg coreLba avail =
      .ok () := by
    have sectors : 2 ≤ coreSectors run.coreImg ∧ coreSectors run.coreImg ≤ 2048 := by
      rw [coreSectors]
      omega
    rw [checkCore, if_neg (by omega), if_neg (by omega), if_neg (by omega)]
  have prepared : prepareBoot target run disk = .ok {
      secSz := plan.secSz, before := fun index => disk.bytes (0 + index)
      isGpt := isGptMbr fun index => disk.bytes (0 + index), coreLba } := by
    simp only [prepareBoot, sector, target_, read, image, area, core, smooth.generated,
      smooth.opened, orRefuse, Option.map_none, bind, Except.bind, pure, Except.pure]
  have decided := prepareBoot_ok prepared
  obtain ⟨start, lead, total, raw, inside⟩ :=
    decided_span kept written sound decided found enough
  dsimp only at start lead total raw inside
  have bounds := found.bounds sound
  have whole := sound.figures.inside
  have least := sound.figures.sector
  have room' := sound.figures.room
  obtain ⟨left, performed⟩ : ∃ left, performAll run.refuses disk 0
      (bootWrites plan.secSz (newMbr (fun index => disk.bytes (0 + index)) run.bootImg coreLba)
        (coreBuf disk coreLba run.coreImg (coreSpan plan.secSz coreLba run.coreImg))
        (coreSpan plan.secSz coreLba run.coreImg)) = (.ok (), left) := by
    apply performAll_succeeds 0 smooth.writes
    intro step member
    unfold bootWrites at member
    split at member
    · rcases List.mem_cons.mp member with rfl | later
      · exact ⟨by dsimp only; omega, by dsimp only; omega⟩
      · cases later
    · rcases List.mem_cons.mp member with rfl | later
      · exact ⟨by dsimp only; omega, by dsimp only; omega⟩
      · rcases List.mem_cons.mp later with rfl | rest
        · exact ⟨by dsimp only; omega, by dsimp only; omega⟩
        · cases rest
  have still : TablesKept opts plan after left :=
    OutsideCore.tables kept sound (decided_outside kept written sound decided performed)
  have code : left.bytes 0 ≠ 0 := by
    have first := (bootWrites_done disk.bytes
      (newMbr (fun index => disk.bytes (0 + index)) run.bootImg coreLba)
      (coreBuf disk coreLba run.coreImg (coreSpan plan.secSz coreLba run.coreImg)) least.1
      (by omega) total).1 0 (by omega)
    rw [(performAll_ok performed).2.1, first, newMbr_code (by omega) smooth.image]
    exact smooth.code
  have verified : verifyBoot (rufuxMacosBlockNode target.dst) left plan.secSz opts.isGpt
      (fun index => disk.bytes (0 + index)) = .ok () :=
    verifyBoot_succeeds kept written sound same still code room
  refine ⟨left, ?_⟩
  simp only [rufuxWindowsBiosInstall, prepared, performed, smooth.synced,
    isGptMbr_kept kept written sound same, verified]

end Success

section Claims

variable {target : Target} {opts : PartOpts} {partRun : PartRun} {run : BootRun target}
  {device after disk left : Device} {plan : Plan} {answer : Except String String} {line : String}

/-- Whatever the images are, the installer changes boot code and the core area and nothing
else; every slice is found where it was; and images that do not fit leave the disk alone. -/
theorem bios_install_frame (planned : Planned target opts plan)
    (done : rufuxPartitionOn target opts partRun device = (.ok (), after))
    (kept : TablesKept opts plan after disk)
    (installed : rufuxWindowsBiosInstall target run disk = (answer, left)) :
    (left.size = disk.size ∧ ∀ index, left.bytes index ≠ disk.bytes index →
        index < 440 ∨ ∃ low high, plan.CoreArea opts.isGpt low high ∧ low ≤ index ∧ index < high) ∧
      TablesKept opts plan after left ∧
      (∀ part ∈ plan.parts, (opts.isGpt = true → part.gptType ≠ guidBiosBoot) →
        ∀ index, part.firstLba * plan.secSz ≤ index → index < (part.lastLba + 1) * plan.secSz →
          left.bytes index = disk.bytes index) ∧
      (∀ slice, rufuxPartOffsetSectors target (some left) slice =
        rufuxPartOffsetSectors target (some disk) slice) ∧
      (¬ run.Fits plan opts.isGpt → left = disk ∧ ∃ why, answer = .error why) := by
  have sound := planned.sound
  have written := planned.written done
  obtain ⟨size, outside⟩ := install_outside kept written sound installed
  refine ⟨⟨size, ?_⟩, install_kept kept written sound installed, ?_, ?_, ?_⟩
  · intro index differs
    by_contra apart
    rw [not_or] at apart
    refine differs (outside index (by omega) fun low high area inside => ?_)
    exact apart.2 ⟨low, high, area, inside⟩
  · intro part member other index lower upper
    have start := sound.start member
    refine outside index (by omega) fun low high area inside => ?_
    have apart := area.parts sound member other
    omega
  · intro slice
    rw [(install_kept kept written sound installed).answers written sound slice,
      kept.answers written sound slice]
  · intro unfit
    rcases install_cases installed with ⟨why, refused, same⟩ | ⟨boot, outcome, decided, _⟩
    · exact ⟨same, why, refused⟩
    · obtain ⟨_, _, high, area, fits⟩ := decided_area kept written sound decided
      exact absurd ⟨decided.image, decided.least, decided.most, _, high, area, fits⟩ unfit

/-- Images for the small disk: the smallest core image there is. -/
def smallImages : BootRun smallDisk := {
  isBootDisk := false, located := none, moddir := "/opt/grub", statted := none, isDev := false
  regular := fun _ => rfl
  bootImg := 0xEB :: List.replicate 509 0 ++ [0x55, 0xAA]
  generated := none, coreImg := List.replicate 1024 1, opened := none
  refuses := fun _ => none, synced := none }

theorem smallImages_core :
    smallImages.coreImg.length = 1024 ∧ coreSectors smallImages.coreImg = 2 := by
  have length : smallImages.coreImg.length = 1024 := List.length_replicate
  exact ⟨length, by rw [coreSectors, length]⟩

theorem smallImages_smooth : smallImages.Smooth where
  otherDisk := rfl
  located := rfl
  statted := rfl
  generated := rfl
  opened := rfl
  writes _ := rfl
  synced := rfl
  image := by decide +kernel
  signature := by decide +kernel
  code := by decide

/-- On the small disk with a DOS table the images fit into the gap. -/
theorem smallImages_installed : ∃ after left,
    rufuxPartitionOn smallDisk dosSingle plainRun blankDevice = (.ok (), after) ∧
      rufuxWindowsBiosInstall smallDisk smallImages after = (.ok (installedLine false), left) := by
  obtain ⟨after, done⟩ :
      ∃ after, rufuxPartitionOn smallDisk dosSingle plainRun blankDevice = (.ok (), after) :=
    Planned.succeeds rfl rfl (fun _ => rfl) rfl (Nat.le_refl _) (by decide)
  have planned : Planned smallDisk dosSingle _ := rfl
  have written := planned.written done
  have size : after.size = 67108864 := written.size
  obtain ⟨left, installed⟩ := install_succeeds (TablesKept.refl dosSingle _ after) written
    planned.sound smallImages_smooth (Nat.le_of_eq size.symm) (by decide)
    (Nat.le_of_eq smallImages_core.1.symm) (by rw [smallImages_core.1]; decide)
    ⟨_, _, rfl, _, rfl, rfl⟩ (by
      rintro _ _ ⟨rfl, part, head, rfl⟩
      cases head
      rw [smallImages_core.2]
      decide)
  exact ⟨after, left, done, installed⟩

theorem bios_install_frame_small : ∃ after left,
    rufuxWindowsBiosInstall smallDisk smallImages after = (.ok (installedLine false), left) ∧
      rufuxPartOffsetSectors smallDisk (some left) 1 =
        rufuxPartOffsetSectors smallDisk (some after) 1 := by
  obtain ⟨after, left, done, installed⟩ := smallImages_installed
  have planned : Planned smallDisk dosSingle _ := rfl
  exact ⟨after, left, installed,
    (bios_install_frame planned done (TablesKept.refl _ _ _) installed).2.2.2.1 1⟩

/-- The pointers of an installed boot chain lead to the core image and to the rest of it, all
of it inside the core area. -/
theorem boot_pointers (planned : Planned target opts plan)
    (done : rufuxPartitionOn target opts partRun device = (.ok (), after))
    (kept : TablesKept opts plan after disk)
    (installed : rufuxWindowsBiosInstall target run disk = (.ok line, left)) :
    ∃ coreLba high, plan.CoreArea opts.isGpt (coreLba * 512) high ∧
      left.bytes.le 0x5c 8 = coreLba ∧
      (∀ index, index < run.coreImg.length → index < 488 ∨ 512 ≤ index →
        left.bytes (coreLba * 512 + index) = run.coreImg.getD index 0) ∧
      left.bytes.le (coreLba * 512 + 500) 8 = coreLba + 1 ∧
      left.bytes.le (coreLba * 512 + 508) 2 = coreSectors run.coreImg - 1 ∧
      (∀ inner, inner < 12 → left.bytes (coreLba * 512 + 488 + inner) = 0) ∧
      ∀ sector, coreLba ≤ sector → sector < coreLba + coreSectors run.coreImg →
        coreLba * 512 ≤ sector * 512 ∧ (sector + 1) * 512 ≤ high := by
  have sound := planned.sound
  have written := planned.written done
  rcases install_cases installed with ⟨_, refused, _⟩ | ⟨boot, outcome, decided, performed, fine⟩
  · cases refused
  obtain rfl := fine line rfl
  obtain ⟨secSz, _, high, area, fits⟩ := decided_area kept written sound decided
  obtain ⟨start, lead, total, raw, _⟩ := decided_span kept written sound decided area fits
  have least := decided.least
  have most := decided.most
  have sectors : run.coreImg.length ≤ coreSectors run.coreImg * 512 ∧
      coreSectors run.coreImg ≤ 2048 := by
    rw [coreSectors]
    omega
  have bounds := area.bounds sound
  have word := target.devBytes.isLt
  have inside := sound.figures.inside
  have bytes := (performAll_ok performed).2.1
  have sector : 512 ≤ boot.secSz := by
    rw [secSz]
    exact sound.figures.sector.1
  obtain ⟨code, core⟩ := bootWrites_done disk.bytes
    (newMbr boot.before run.bootImg boot.coreLba)
    (coreBuf disk boot.coreLba run.coreImg (coreSpan boot.secSz boot.coreLba run.coreImg))
    sector (by omega) total
  rw [BootPlan.writes] at bytes
  rw [← bytes] at code core
  rw [start] at core
  generalize coreSpan boot.secSz boot.coreLba run.coreImg = span at *
  have image (inner : Nat) (bound : inner < coreSectors run.coreImg * 512) :
      left.bytes (boot.coreLba * 512 + inner) =
        coreBuf disk boot.coreLba run.coreImg span (span.lead + inner) :=
    core inner (by omega)
  have field (at_ width : Nat) (bound : at_ + width ≤ 512) :
      left.bytes.le (boot.coreLba * 512 + at_) width =
        (coreBuf disk boot.coreLba run.coreImg span).le (span.lead + at_) width := by
    apply le_congr
    intro inner small
    rw [Nat.add_assoc, Nat.add_assoc]
    exact image (at_ + inner) (by omega)
  refine ⟨boot.coreLba, high, area, ?_, ?_, ?_, ?_, ?_, ?_⟩
  · have pointer : left.bytes.le 0x5c 8 = (newMbr boot.before run.bootImg boot.coreLba).le 0x5c 8 :=
      le_congr fun inner small => code _ (by omega)
    rw [pointer, newMbr_pointer (by omega)]
  · intro index bound apart
    rw [image index (by omega), coreBuf, patchCore_outside (by omega), put_inside bound]
  · rw [field 500 8 (by omega), coreBuf, patchCore_start (by omega)]
  · rw [field 508 2 (by omega), coreBuf, patchCore_count (by omega)]
  · intro inner small
    rw [Nat.add_assoc, image (488 + inner) (by omega), coreBuf, ← Nat.add_assoc,
      patchCore_end inner small]
  · intro sector lower upper
    omega

theorem boot_pointers_small : ∃ after left coreLba,
    rufuxWindowsBiosInstall smallDisk smallImages after = (.ok (installedLine false), left) ∧
      left.bytes.le 0x5c 8 = coreLba ∧ left.bytes.le (coreLba * 512 + 500) 8 = coreLba + 1 ∧
      left.bytes.le (coreLba * 512 + 508) 2 = 1 := by
  obtain ⟨after, left, done, installed⟩ := smallImages_installed
  have planned : Planned smallDisk dosSingle _ := rfl
  obtain ⟨coreLba, _, _, pointer, _, start, count, _⟩ :=
    boot_pointers planned done (TablesKept.refl _ _ _) installed
  rw [smallImages_core.2] at count
  exact ⟨after, left, coreLba, installed, pointer, start, count⟩

end Claims

end Rufux.Macos
