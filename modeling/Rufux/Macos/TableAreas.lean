import Rufux.Macos.GptRead

/-!
What a successful partitioning run leaves on the disk: which bytes it writes, and what
stands in the table areas afterwards.
-/

namespace Rufux.Macos

open Library ByteMap

section Performing

variable {refuses : Nat → Option Refusal} {device after : Device} {index : Nat}
  {steps : List TableWrite}

theorem pwriteAll_ok {refusal : Option Refusal} {write : Write}
    (ok : device.pwriteAll refusal write = (.ok (), after)) :
    device.Reaches write.off write.len ∧
      after = { device with bytes := device.bytes.apply write } := by
  cases refusal with
  | some refusal => cases ok
  | none =>
      simp only [Device.pwriteAll] at ok
      split at ok
      · rename_i reach
        cases ok
        exact ⟨reach, by rw [Nat.min_self]⟩
      · cases ok

/-- A sequence of writes that succeeds has made every one of them. -/
theorem performAll_ok (ok : performAll refuses device index steps = (.ok (), after)) :
    after.size = device.size ∧
      after.bytes = device.bytes.applyAll (steps.map TableWrite.write) ∧
      ∀ step ∈ steps, device.Reaches step.write.off step.write.len := by
  induction steps generalizing device index with
  | nil =>
      cases ok
      exact ⟨rfl, rfl, nofun⟩
  | cons step rest ih =>
      simp only [performAll] at ok
      split at ok
      · cases ok
      · rename_i written wrote
        obtain ⟨reach, rfl⟩ := pwriteAll_ok wrote
        obtain ⟨size, bytes, reaches⟩ := ih ok
        exact ⟨size, bytes, List.forall_mem_cons.mpr ⟨reach, reaches⟩⟩

/-- Whether it succeeds or not, a write leaves some first part of itself. -/
theorem pwriteAll_left {refusal : Option Refusal} {write : Write} {answer : Except String Unit}
    (ran : device.pwriteAll refusal write = (answer, after)) :
    ∃ len, len ≤ write.len ∧
      after = { device with bytes := device.bytes.apply { write with len } } := by
  unfold Device.pwriteAll at ran
  cases refusal with
  | some refusal =>
      cases ran
      exact ⟨_, Nat.min_le_right _ _, rfl⟩
  | none =>
      dsimp only at ran
      split at ran <;> cases ran <;> exact ⟨_, Nat.min_le_right _ _, rfl⟩

/-- A byte that every write over it leaves as it is stays, however the sequence ends. -/
theorem performAll_kept {answer : Except String Unit} {address : Nat}
    (same : ∀ step ∈ steps, step.write.Covers address →
      step.write.source (address - step.write.off) = device.bytes address)
    (ran : performAll refuses device index steps = (answer, after)) :
    after.size = device.size ∧ after.bytes address = device.bytes address := by
  induction steps generalizing device index with
  | nil =>
      cases ran
      exact ⟨rfl, rfl⟩
  | cons step rest ih =>
      obtain ⟨first, later⟩ := List.forall_mem_cons.mp same
      have kept {outcome : Except String Unit} {left : Device}
          (wrote : device.pwriteAll (refuses index) step.write = (outcome, left)) :
          left.size = device.size ∧ left.bytes address = device.bytes address := by
        obtain ⟨len, within, rfl⟩ := pwriteAll_left wrote
        refine ⟨rfl, ?_⟩
        by_cases covers : step.write.off ≤ address ∧ address < step.write.off + len
        · exact (if_pos covers).trans (first ⟨covers.1, by omega⟩)
        · exact if_neg covers
      simp only [performAll] at ran
      split at ran
      · rename_i wrote
        cases ran
        exact kept wrote
      · rename_i written wrote
        obtain ⟨size, byte⟩ := kept wrote
        obtain ⟨lastSize, lastByte⟩ := ih (by rw [byte]; exact later) ran
        exact ⟨lastSize.trans size, lastByte.trans byte⟩

/-- Nothing but a refusal or the end of the device stops the writes. -/
theorem performAll_succeeds (index : Nat) (quiet : ∀ index, refuses index = none)
    (reaches : ∀ step ∈ steps, device.Reaches step.write.off step.write.len) :
    ∃ after, performAll refuses device index steps = (.ok (), after) := by
  induction steps generalizing device index with
  | nil => exact ⟨device, rfl⟩
  | cons step rest ih =>
      obtain ⟨reach, later⟩ := List.forall_mem_cons.mp reaches
      simp only [performAll, Device.pwriteAll, quiet index, if_pos reach]
      exact ih (index + 1) later

end Performing

section Wipes

variable {off len index : Nat}

theorem zeroRange_zeros : ∀ write ∈ zeroRange off len, write.source = zeros := by
  fun_induction zeroRange off len with
  | case1 => exact nofun
  | case2 off len more ih => exact List.forall_mem_cons.mpr ⟨rfl, ih⟩

theorem zeroRange_covers :
    (∃ write ∈ zeroRange off len, write.Covers index) ↔ off ≤ index ∧ index < off + len := by
  fun_induction zeroRange off len with
  | case1 off =>
      constructor
      · rintro ⟨_, member, _⟩
        cases member
      · omega
  | case2 off len more ih =>
      rw [List.exists_mem_cons_iff, ih]
      simp only [Write.Covers, zcap]
      omega

theorem zeroRange_within {write : Write} (member : write ∈ zeroRange off len) :
    off ≤ write.off ∧ write.off + write.len ≤ off + len := by
  fun_induction zeroRange off len with
  | case1 => cases member
  | case2 off len more ih =>
      rcases List.mem_cons.mp member with rfl | later
      · exact ⟨Nat.le_refl off, by simp only; omega⟩
      · have := ih later
        omega

end Wipes

section Figures

variable {target : Target} {isGpt : Bool} {plan : Plan}

/-- The table areas of a plan in bytes. -/
structure Plan.Figures (target : Target) (plan : Plan) : Prop where
  sector : 512 ≤ plan.secSz ∧ plan.secSz ≤ 4096
  array : plan.disk.entrySectors * plan.secSz = entryArrayBytes
  backup : backupEntriesLba plan.disk * plan.secSz + entryArrayBytes = plan.disk.lastLba * plan.secSz
  last : plan.disk.lastLba * plan.secSz + plan.secSz = plan.disk.totalLbas * plan.secSz
  tail : (plan.disk.lastLba - 33) * plan.secSz + 34 * plan.secSz = plan.disk.totalLbas * plan.secSz
  room : 2 * 1048576 + 2 * plan.secSz + entryArrayBytes ≤ plan.disk.totalLbas * plan.secSz
  many : 34 < plan.disk.totalLbas
  inside : plan.disk.totalLbas * plan.secSz ≤ target.devBytes.toNat

theorem Plan.Sound.figures (sound : plan.Sound target isGpt) : plan.Figures target := by
  obtain ⟨_, sizes, disk, _, _, _, _⟩ := sound
  have array : plan.disk.entrySectors * plan.secSz = entryArrayBytes := by
    rw [disk.entries]
    rcases sizes with same | same | same | same <;> rw [same] <;> rfl
  have sectors : 256 ≤ plan.disk.spm ∧ plan.disk.entrySectors ≤ 32 := by
    have mebibyte := disk.mebibyte
    rw [entryArrayBytes] at array
    rcases sizes with same | same | same | same <;> rw [same] at mebibyte array <;> omega
  have least := disk.least
  have last := disk.last
  have scaled := Nat.mul_le_mul_right plan.secSz least
  have mebibytes : (2 * plan.disk.spm + 2 * (plan.disk.entrySectors + 2)) * plan.secSz =
      2 * (plan.disk.spm * plan.secSz) + 2 * (plan.disk.entrySectors * plan.secSz) +
        4 * plan.secSz := by ring
  rw [mebibytes, array, disk.mebibyte] at scaled
  constructor
  · rcases sizes with same | same | same | same <;> omega
  · exact array
  · rw [← array, backupEntriesLba, ← Nat.add_mul, Nat.sub_add_cancel (by omega)]
  · rw [← Nat.succ_mul, Nat.succ_eq_add_one, last]
  · rw [← Nat.add_mul]
    congr 1
    omega
  · omega
  · omega
  · rw [disk.lbas]
    exact Nat.div_mul_le_self _ _

/-- Every part starts after the first mebibyte. -/
theorem Plan.Sound.start (sound : plan.Sound target isGpt) {part : PartSpec}
    (member : part ∈ plan.parts) : 1048576 ≤ part.firstLba * plan.secSz := by
  have first := (sound.tiles.each part member).1
  have scaled := Nat.mul_le_mul_right plan.secSz first
  rwa [sound.disk.mebibyte] at scaled

end Figures

section Frame

variable {target : Target} {isGpt : Bool} {plan : Plan} {bnode : String} {index : Nat}

/-- The wiped sectors at the head and at the tail of the disk: `wipe_lbas` of them each. -/
def Plan.TableArea (plan : Plan) (index : Nat) : Prop :=
  index < 34 * plan.secSz ∨
    (plan.disk.totalLbas - 34) * plan.secSz ≤ index ∧ index < plan.disk.totalLbas * plan.secSz

/-- The first and the last mebibyte of a part. -/
def PartSpec.Edge (secSz : Nat) (part : PartSpec) (index : Nat) : Prop :=
  part.firstLba * secSz ≤ index ∧ index < (part.lastLba + 1) * secSz ∧
    (index < part.firstLba * secSz + zcap ∨ (part.lastLba + 1) * secSz ≤ index + zcap)

def Covered (steps : List TableWrite) (index : Nat) : Prop :=
  ∃ step ∈ steps, step.write.Covers index

theorem covered_append {first second : List TableWrite} :
    Covered (first ++ second) index ↔ Covered first index ∨ Covered second index := by
  simp only [Covered, List.mem_append]
  constructor
  · rintro ⟨step, member | member, covers⟩
    · exact .inl ⟨step, member, covers⟩
    · exact .inr ⟨step, member, covers⟩
  · rintro (⟨step, member, covers⟩ | ⟨step, member, covers⟩)
    · exact ⟨step, .inl member, covers⟩
    · exact ⟨step, .inr member, covers⟩

theorem covered_labelled {failed : String → String} {off len : Nat} :
    Covered (labelled failed (zeroRange off len)) index ↔ off ≤ index ∧ index < off + len := by
  rw [← zeroRange_covers]
  simp [Covered, labelled]

theorem wipeTables_covers (sound : plan.Sound target isGpt) :
    Covered (wipeTables bnode plan) index ↔ plan.TableArea index := by
  have figures := sound.figures
  have many := figures.many
  have tail := figures.tail
  have last := sound.disk.last
  have start : plan.disk.lastLba - 33 = plan.disk.totalLbas - 34 := by omega
  rw [start] at tail
  simp only [wipeTables, covered_append, covered_labelled, if_pos many, start,
    Nat.min_eq_left (Nat.le_of_lt many), Plan.TableArea]
  omega

theorem wipePart_covers {secSz number : Nat} {part : PartSpec} (order : part.firstLba ≤ part.lastLba) :
    Covered (wipePart bnode secSz number part) index ↔ part.Edge secSz index := by
  have length : part.firstLba * secSz + part.count * secSz = (part.lastLba + 1) * secSz := by
    rw [← Nat.add_mul, PartSpec.count]
    congr 1
    omega
  simp only [wipePart, PartSpec.Edge]
  generalize part.firstLba * secSz = poff at *
  generalize part.count * secSz = plen at *
  rw [← length]
  split
  · rw [covered_labelled]
    omega
  · have whole : labelled (fun _ => s!"failed wiping partition {number} edges on '{bnode}'")
        (zeroRange poff zcap ++ zeroRange (poff + plen - zcap) zcap) =
        labelled (fun _ => s!"failed wiping partition {number} edges on '{bnode}'")
          (zeroRange poff zcap) ++
        labelled (fun _ => s!"failed wiping partition {number} edges on '{bnode}'")
          (zeroRange (poff + plen - zcap) zcap) := List.map_append
    rw [whole, covered_append, covered_labelled, covered_labelled]
    omega

theorem wipeParts_covers {secSz number : Nat} {parts : List PartSpec}
    (orders : ∀ part ∈ parts, part.firstLba ≤ part.lastLba) :
    Covered (wipeParts bnode secSz number parts) index ↔
      ∃ part ∈ parts, part.Edge secSz index := by
  induction parts generalizing number with
  | nil => simp [wipeParts, Covered]
  | cons part rest ih =>
      obtain ⟨order, later⟩ := List.forall_mem_cons.mp orders
      rw [wipeParts, covered_append, wipePart_covers order, ih later, List.exists_mem_cons_iff]

def Each (holds : Write → Prop) (steps : List TableWrite) : Prop :=
  ∀ step ∈ steps, holds step.write

theorem Each.append {holds : Write → Prop} {first second : List TableWrite}
    (left : Each holds first) (right : Each holds second) : Each holds (first ++ second) := by
  intro step member
  rcases List.mem_append.mp member with member | member
  · exact left step member
  · exact right step member

theorem each_labelled {holds : Write → Prop} {failed : String → String} {writes : List Write}
    (each : ∀ write ∈ writes, holds write) : Each holds (labelled failed writes) := by
  intro step member
  obtain ⟨write, listed, rfl⟩ := List.mem_map.mp member
  exact each write listed

/-- What every piece of every wiped range has, all of the wipes have. -/
theorem each_wipes {holds : Write → Prop} {bound : Nat} (sound : plan.Sound target isGpt)
    (end_ : bound = plan.disk.totalLbas * plan.secSz)
    (piece : ∀ off len, off + len ≤ bound → ∀ write ∈ zeroRange off len, holds write) :
    Each holds (wipeTables bnode plan ++ wipeParts bnode plan.secSz 1 plan.parts) := by
  have figures := sound.figures
  have many := figures.many
  apply Each.append
  · refine (each_labelled (piece _ _ ?_)).append ?_
    · rw [Nat.zero_add, end_]
      exact Nat.mul_le_mul_right _ (Nat.min_le_right _ _)
    · rw [if_pos many]
      exact each_labelled (piece _ _ (by rw [figures.tail, end_]))
  · have ends : ∀ part ∈ plan.parts, part.firstLba * plan.secSz + part.count * plan.secSz ≤ bound := by
      intro part member
      obtain ⟨_, _, order, last⟩ := sound.tiles.each part member
      rw [← Nat.add_mul, PartSpec.count, end_]
      exact Nat.mul_le_mul_right _ (by omega)
    generalize 1 = number
    generalize plan.parts = parts at ends
    induction parts generalizing number with
    | nil => exact nofun
    | cons part rest ih =>
        obtain ⟨fits, later⟩ := List.forall_mem_cons.mp ends
        refine Each.append ?_ (ih (number + 1) later)
        unfold wipePart
        dsimp only
        split
        · exact each_labelled (piece _ _ fits)
        · apply each_labelled
          intro write member
          rcases List.mem_append.mp member with first | second
          · exact piece _ _ (by omega) write first
          · exact piece _ _ (by omega) write second

theorem wipes_zeros (sound : plan.Sound target isGpt) :
    Each (fun write => write.source = zeros)
      (wipeTables bnode plan ++ wipeParts bnode plan.secSz 1 plan.parts) :=
  each_wipes sound rfl fun _ _ _ => zeroRange_zeros

/-- No planned write goes past the last whole sector. -/
theorem tableWrites_within (run : PartRun) (sound : plan.Sound target isGpt) :
    Each (fun write => write.off + write.len ≤ plan.disk.totalLbas * plan.secSz)
      (tableWrites run bnode isGpt plan) := by
  obtain ⟨⟨least, most⟩, _, backup, last, tail, room, many, _⟩ := sound.figures
  have array : entryArrayBytes = 16384 := rfl
  refine (each_wipes sound rfl fun off len inside write member => ?_).append ?_
  · exact Nat.le_trans (zeroRange_within member).2 inside
  · refine List.forall_mem_cons.mpr ⟨?_, ?_⟩
    · simp only [writeMbr]
      omega
    · have tables : Each (fun write => write.off + write.len ≤ plan.disk.totalLbas * plan.secSz)
          (writeGpt run.chance bnode plan) := by
        apply each_labelled
        simp only [List.forall_mem_cons]
        refine ⟨?_, ?_, ?_, ?_, nofun⟩ <;> omega
      split
      · exact tables
      · exact nofun

end Frame

section Success

variable {target : Target} {opts : PartOpts} {run : PartRun} {device after : Device} {plan : Plan}
  {index : Nat}

/-- The plan of a run that was no dry run and refused nothing. -/
def Planned (target : Target) (opts : PartOpts) (plan : Plan) : Prop :=
  (rufuxPartition target opts).run 64 = .ok (some plan)

def PartOpts.isGpt (opts : PartOpts) : Bool := decide (opts.scheme = some "gpt")

theorem Planned.sound (planned : Planned target opts plan) : plan.Sound target opts.isGpt :=
  (rufuxPartition_sound target opts).2 _ planned plan rfl

/-- The disk after a successful run: every planned write was made, within the device. -/
structure Written (target : Target) (opts : PartOpts) (run : PartRun) (device : Device)
    (plan : Plan) (after : Device) : Prop where
  size : after.size = device.size
  bytes : after.bytes = device.bytes.applyAll
    ((tableWrites run (rufuxMacosBlockNode target.dst) opts.isGpt plan).map TableWrite.write)
  reaches : ∀ step ∈ tableWrites run (rufuxMacosBlockNode target.dst) opts.isGpt plan,
    device.Reaches step.write.off step.write.len

theorem Planned.written (planned : Planned target opts plan)
    (done : rufuxPartitionOn target opts run device = (.ok (), after)) :
    Written target opts run device plan after := by
  unfold rufuxPartitionOn at done
  rw [Planned] at planned
  rw [planned] at done
  dsimp only at done
  split at done
  · cases done
  split at done
  · cases done
  rename_i performed
  split at done
  · cases done
  cases done
  obtain ⟨size, bytes, reaches⟩ := performAll_ok performed
  exact ⟨size, bytes, reaches⟩

/-- Where nothing is refused and the device is as large as it says, partitioning succeeds. -/
theorem Planned.succeeds (planned : Planned target opts plan) (prepared : run.prepare = none)
    (quiet : ∀ index, run.refuses index = none) (finished : run.finish = none)
    (large : target.devBytes.toNat ≤ device.size) (range : target.devBytes.toNat < 2 ^ 63) :
    ∃ after, rufuxPartitionOn target opts run device = (.ok (), after) := by
  have inside := planned.sound.figures.inside
  have reaches : ∀ step ∈ tableWrites run (rufuxMacosBlockNode target.dst) opts.isGpt plan,
      device.Reaches step.write.off step.write.len := by
    intro step member
    have within := tableWrites_within run planned.sound step member
    dsimp only at within
    exact ⟨by omega, by omega⟩
  obtain ⟨after, performed⟩ := performAll_succeeds 0 quiet reaches
  refine ⟨after, ?_⟩
  rw [PartOpts.isGpt] at performed
  rw [Planned] at planned
  simp only [rufuxPartitionOn, planned, prepared, performed, finished]

/-- What stands under the first sector once the areas are wiped. -/
def Plan.wiped (target : Target) (plan : Plan) (device : Device) : ByteMap :=
  device.bytes.applyAll ((wipeTables (rufuxMacosBlockNode target.dst) plan ++
    wipeParts (rufuxMacosBlockNode target.dst) plan.secSz 1 plan.parts).map TableWrite.write)

theorem Plan.wiped_blank (sound : plan.Sound target opts.isGpt) (area : plan.TableArea index) :
    plan.wiped target device index = 0 := by
  have blank : Each (fun write => write.source = zeros)
    (wipeTables (rufuxMacosBlockNode target.dst) plan ++
      wipeParts (rufuxMacosBlockNode target.dst) plan.secSz 1 plan.parts) := wipes_zeros sound
  apply applyAll_agreed
  · intro write member _
    obtain ⟨step, listed, rfl⟩ := List.mem_map.mp member
    rw [blank step listed]
    rfl
  · obtain ⟨step, listed, covers⟩ := (wipeTables_covers sound).mpr area
    exact .inr ⟨step.write, List.mem_map_of_mem (List.mem_append_left _ listed), covers⟩

theorem Plan.wiped_outside (sound : plan.Sound target opts.isGpt) (table : ¬ plan.TableArea index)
    (edges : ∀ part ∈ plan.parts, ¬ part.Edge plan.secSz index) :
    plan.wiped target device index = device.bytes index := by
  apply applyAll_outside
  intro write member covers
  obtain ⟨step, listed, rfl⟩ := List.mem_map.mp member
  have covered : Covered (wipeTables (rufuxMacosBlockNode target.dst) plan ++
    wipeParts (rufuxMacosBlockNode target.dst) plan.secSz 1 plan.parts) index :=
      ⟨step, listed, covers⟩
  rw [covered_append, wipeTables_covers sound,
    wipeParts_covers fun part member => (sound.tiles.each part member).2.2.1] at covered
  rcases covered with area | ⟨part, listed, edge⟩
  · exact table area
  · exact edges part listed edge

theorem Written.dos (written : Written target opts run device plan after)
    (dos : opts.isGpt = false) :
    after.bytes = (plan.wiped target device).place 0 (firstSector run false plan) plan.secSz := by
  rw [written.bytes, dos, tableWrites, List.map_append, applyAll_append]
  rfl

theorem Written.gpt (written : Written target opts run device plan after)
    (gpt : opts.isGpt = true) :
    after.bytes = (((((plan.wiped target device).place 0 (firstSector run true plan) plan.secSz).place
      (1 * plan.secSz) (primaryHeader run.chance plan) plan.secSz).place
      (2 * plan.secSz) (gptEntries run.chance plan.parts) entryArrayBytes).place
      (backupEntriesLba plan.disk * plan.secSz) (gptEntries run.chance plan.parts)
        entryArrayBytes).place
      (plan.disk.lastLba * plan.secSz) (backupHeader run.chance plan) plan.secSz := by
  rw [written.bytes, gpt, tableWrites, List.map_append, applyAll_append]
  rfl

/-- Outside the tables' sectors and the parts' edges the disk is as it was. -/
theorem Written.outside (written : Written target opts run device plan after)
    (sound : plan.Sound target opts.isGpt) (table : ¬ plan.TableArea index)
    (edges : ∀ part ∈ plan.parts, ¬ part.Edge plan.secSz index) :
    after.bytes index = device.bytes index := by
  obtain ⟨⟨least, most⟩, _, backup, last, tail, room, many, _⟩ := sound.figures
  have start : plan.disk.lastLba - 33 = plan.disk.totalLbas - 34 := by
    have := sound.disk.last
    omega
  rw [start] at tail
  have apart := table
  rw [Plan.TableArea] at apart
  have array : entryArrayBytes = 16384 := rfl
  have wiped : plan.wiped target device index = device.bytes index :=
    Plan.wiped_outside sound table edges
  rw [← wiped]
  cases scheme : opts.isGpt with
  | false =>
      rw [written.dos scheme]
      exact place_outside (by omega)
  | true =>
      rw [written.gpt scheme, place_outside (by omega), place_outside (by omega),
        place_outside (by omega), place_outside (by omega), place_outside (by omega)]

/-- After a DOS run the table areas are blank but for the first sector. -/
theorem Written.dos_blank (written : Written target opts run device plan after)
    (sound : plan.Sound target opts.isGpt) (dos : opts.isGpt = false)
    (area : plan.TableArea index) (later : plan.secSz ≤ index) : after.bytes index = 0 := by
  rw [written.dos dos, place_outside (by omega)]
  exact Plan.wiped_blank sound area

/-- A successful run changes the sectors of the tables and the edges of the parts and nothing
else, and after a DOS run no header of an earlier GPT is left in the tables' sectors. -/
theorem partition_frame (done : rufuxPartitionOn target opts run device = (.ok (), after)) :
    after.size = device.size ∧
      (∀ index, (∀ plan, Planned target opts plan → ¬ plan.TableArea index ∧
          ∀ part ∈ plan.parts, ¬ part.Edge plan.secSz index) →
        after.bytes index = device.bytes index) ∧
      (opts.scheme ≠ some "gpt" → ∀ plan, Planned target opts plan → ∀ lba,
        1 ≤ lba ∧ lba < 34 ∨
          plan.disk.totalLbas - 34 ≤ lba ∧ lba < plan.disk.totalLbas →
        gptHeaderAt after plan.secSz lba = none) := by
  refine ⟨?_, ?_, ?_⟩
  · cases answer : (rufuxPartition target opts).run 64 with
    | error refusal =>
        rw [rufuxPartitionOn, answer] at done
        cases done
    | ok result =>
        cases result with
        | none =>
            rw [rufuxPartitionOn, answer] at done
            cases done
            rfl
        | some plan => exact (Planned.written answer done).size
  · intro index outside
    cases answer : (rufuxPartition target opts).run 64 with
    | error refusal =>
        rw [rufuxPartitionOn, answer] at done
        cases done
    | ok result =>
        cases result with
        | none =>
            rw [rufuxPartitionOn, answer] at done
            cases done
            rfl
        | some plan =>
            obtain ⟨table, edges⟩ := outside plan answer
            exact (Planned.written answer done).outside (Planned.sound answer) table edges
  · intro scheme plan planned lba place
    have sound := planned.sound
    have dos : opts.isGpt = false := decide_eq_false scheme
    have figures := sound.figures
    have word := target.devBytes.isLt
    have first : plan.secSz ≤ lba * plan.secSz :=
      Nat.le_mul_of_pos_left _ (by have := figures.many; omega)
    have inside : lba * plan.secSz < 2 ^ 64 := by
      have scaled := Nat.mul_le_mul_right plan.secSz
        (show lba ≤ plan.disk.totalLbas by have := figures.many; omega)
      have := figures.inside
      omega
    have area : plan.TableArea (lba * plan.secSz) := by
      have sector := figures.sector.1
      rcases place with head | tail
      · exact .inl ((Nat.mul_lt_mul_right (by omega)).mpr head.2)
      · exact .inr ⟨Nat.mul_le_mul_right _ tail.1, (Nat.mul_lt_mul_right (by omega)).mpr tail.2⟩
    apply gptHeaderAt_blank
    rw [Nat.mod_eq_of_lt inside]
    exact (planned.written done).dos_blank sound dos area first

/-- A disk of 64 MiB and a run in which nothing fails. -/
def smallDisk : Target := {
  dst := "/tmp/disk.img", checkTarget := none, devBytes := 67108864, sectorSize := 512 }

def blankDevice : Device := { size := 67108864, bytes := zeros }

def plainRun : PartRun := {
  mbr440 := fun _ => ⟨List.replicate 440 0, List.length_replicate⟩
  chance := { diskSig := 1, entryGuid := fun _ _ => 0, diskGuid := fun _ => 0 }
  prepare := none, refuses := fun _ => none, finish := none }

theorem partition_frame_small :
    ∃ after, rufuxPartitionOn smallDisk dosSingle plainRun blankDevice = (.ok (), after) ∧
      ∀ plan, Planned smallDisk dosSingle plan → gptHeaderAt after plan.secSz 1 = none := by
  obtain ⟨after, done⟩ :
      ∃ after, rufuxPartitionOn smallDisk dosSingle plainRun blankDevice = (.ok (), after) :=
    Planned.succeeds rfl rfl (fun _ => rfl) rfl (Nat.le_refl _) (by decide)
  refine ⟨after, done, fun plan planned => ?_⟩
  exact (partition_frame done).2.2 (by decide) plan planned 1 (.inl ⟨Nat.le_refl 1, by decide⟩)

end Success

end Rufux.Macos
