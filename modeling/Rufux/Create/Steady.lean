import Rufux.Create.Monotone

/-!
Which calls a run reaches, and that no part of its reports falls exactly when the counts of those
calls do not.
-/

namespace Rufux.Create

open Library Reporting

/-- The counts of a call give percentages that do not fall in the window of its stage. -/
def Called.Steady (base span : Nat) (called : Called) : Prop :=
  (called.counts.map (mapped base span)).Pairwise (· ≤ ·)

theorem rises_within {base span : Nat} {called : Called} :
    (within base span called).Rises ↔ called.Steady base span := by
  unfold within
  rw [rises_bind, rises_report]
  exact and_iff_left fun _ _ => rises_must called.ok

theorem succeeds_within (base span : Nat) (called : Called) :
    (within base span called).succeeds = called.ok := by
  unfold Reporting.succeeds
  rw [within_outcome]
  cases called.ok <;> rfl

theorem rises_within_bind {base span : Nat} {called : Called} {next : Unit → Step Unit} :
    (within base span called >>= next).Rises ↔
      called.Steady base span ∧ (called.ok = true → (next ()).Rises) := by
  rw [rises_bind, rises_within, within_outcome]
  cases called.ok with
  | false => exact and_congr_right fun _ => ⟨nofun, nofun⟩
  | true => exact and_congr_right fun _ => ⟨fun rest _ => rest () rfl, fun rest _ _ => rest rfl⟩

theorem rises_stage (percent : Nat) : (stage percent).Rises := by
  unfold stage
  rw [rises_report]
  split
  · exact List.pairwise_singleton _ _
  · exact .nil

theorem rises_stage_bind {percent : Nat} {next : Unit → Step Unit} :
    (stage percent >>= next).Rises ↔ (next ()).Rises := by
  rw [rises_bind]
  exact ⟨fun rises => rises.2 () rfl, fun rest => ⟨rises_stage percent, fun _ _ => rest⟩⟩

theorem succeeds_stage (percent : Nat) : (stage percent).succeeds = true := rfl

theorem rises_onlyIf_must_bind {wanted ok : Bool} {next : Unit → Step Unit} :
    (onlyIf wanted (must ok) >>= next).Rises ↔
      ((wanted = true → ok = true) → (next ()).Rises) := by
  cases wanted with
  | false => exact ⟨fun rises _ => rises, fun rises => rises nofun⟩
  | true =>
    have same : onlyIf true (must ok) >>= next = must ok >>= next := rfl
    rw [same, rises_must_bind]
    exact ⟨fun rises given => rises (given rfl), fun rises given => rises fun _ => given⟩

theorem succeeds_onlyIf_iff {wanted : Bool} {step : Step Unit} :
    (onlyIf wanted step).succeeds = true ↔ (wanted = true → step.succeeds = true) := by
  rw [succeeds_onlyIf]
  cases wanted <;> simp

/-- The counts of the clearing of the boot area rise by themselves. -/
theorem rises_zeroHead {base span : Nat} (narrow : span ≤ 10) (zeroed : Zeroed) :
    (zeroHead base span zeroed).Rises := by
  unfold zeroHead
  rw [rises_within]
  unfold Called.Steady
  rw [List.map_map, List.pairwise_map]
  refine List.pairwise_lt_range.imp_of_mem fun {i j} first second below => ?_
  have bound := zeroed.bound
  rw [List.mem_range] at first second
  have share (k : Nat) (inside : k < zeroed.rounds) :
      (⟨UInt64.ofNat (k + 1), 16⟩ : Count).share span = min span (span * (k + 1) / 16) := by
    have least : span * (k + 1) ≤ 10 * 16 := Nat.mul_le_mul narrow (by omega)
    have small : span * (k + 1) < 2 ^ 64 := Nat.lt_of_le_of_lt least (by decide)
    have whole : (UInt64.ofNat (k + 1)).toNat = k + 1 := Nat.mod_eq_of_lt (by omega)
    unfold Count.share
    have given : (16 : UInt64) ≠ 0 := by decide
    rw [if_neg given, whole, Nat.mod_eq_of_lt small]
    rfl
  have order : span * (i + 1) / 16 ≤ span * (j + 1) / 16 :=
    Nat.div_le_div_right (Nat.mul_le_mul_left span (by omega))
  unfold mapped
  simp only [Function.comp_apply]
  rw [share i first, share j second]
  omega

theorem succeeds_zeroHead (base span : Nat) (zeroed : Zeroed) :
    (zeroHead base span zeroed).succeeds = zeroed.ok :=
  succeeds_within _ _ _

theorem rises_zeroHead_bind {wanted : Bool} {base span : Nat} {zeroed : Zeroed}
    {next : Unit → Step Unit} (narrow : span ≤ 10) :
    (onlyIf wanted (zeroHead base span zeroed) >>= next).Rises ↔
      ((wanted = true → zeroed.ok = true) → (next ()).Rises) := by
  have steady := (@rises_zeroHead base) narrow zeroed
  rw [rises_bind, rises_onlyIf, ← succeeds_zeroHead base span zeroed, ← succeeds_onlyIf_iff,
    succeeds_iff]
  exact ⟨fun rises done => rises.2 () done, fun rest => ⟨fun _ => steady, fun _ done => rest done⟩⟩

/-! ### Up to the flow -/

section Start

variable {o : CreateOpts} {start : StartCalls}

theorem rises_badblocksFrom {destination : Destination} {span passes : Nat}
    {scans : Nat → Scanned} {i left : Nat} :
    (badblocksFrom destination span passes scans i left).Rises ↔ (destination ≠ .directory →
      ∀ k, i ≤ k → k < i + left → (∀ j, i ≤ j → j < k → (scans j).called.ok = true) →
        (scans k).called.Steady (passBase span passes k) (span / passes)) := by
  induction left generalizing i with
  | zero => exact ⟨fun _ _ k least below _ => by omega, fun _ => rises_pure ()⟩
  | succ left ih =>
    rw [badblocksFrom, rises_must_bind, rises_within_bind, ih]
    constructor
    · intro rises whole k least below reached
      obtain ⟨first, rest⟩ := rises (decide_eq_true whole)
      rcases Nat.eq_or_lt_of_le least with rfl | later
      · exact first
      · exact rest (reached i (Nat.le_refl i) later) whole k later (by omega)
          fun j from_ before => reached j (by omega) before
    · intro steady scanned
      have whole := of_decide_eq_true scanned
      refine ⟨steady whole i (Nat.le_refl i) (by omega) fun j least before => by omega, ?_⟩
      intro ok _ k least below reached
      refine steady whole k (by omega) (by omega) fun j from_ before => ?_
      rcases Nat.eq_or_lt_of_le from_ with rfl | later
      · exact ok
      · exact reached j later before

theorem succeeds_badblocksFrom {destination : Destination} {span passes : Nat}
    {scans : Nat → Scanned} {i left : Nat} :
    (badblocksFrom destination span passes scans i left).succeeds = true ↔
      (left = 0 ∨ destination ≠ .directory) ∧
        ∀ k, i ≤ k → k < i + left → (scans k).called.ok = true := by
  induction left generalizing i with
  | zero => exact ⟨fun _ => ⟨.inl rfl, fun k least below => by omega⟩, fun _ => rfl⟩
  | succ left ih =>
    rw [badblocksFrom, succeeds_bind, succeeds_bind, succeeds_must, succeeds_within,
      Bool.and_eq_true, Bool.and_eq_true, ih, decide_eq_true_iff]
    constructor
    · rintro ⟨whole, ok, _, rest⟩
      refine ⟨.inr whole, fun k least below => ?_⟩
      rcases Nat.eq_or_lt_of_le least with rfl | later
      · exact ok
      · exact rest k later (by omega)
    · rintro ⟨never | whole, rest⟩
      · cases never
      · exact ⟨whole, rest i (Nat.le_refl i) (by omega), .inr whole,
          fun k least below => rest k (by omega) (by omega)⟩

/-- No pass that is reached reports less than it did. -/
def StartSteady (o : CreateOpts) (start : StartCalls) : Prop :=
  o.dryRun = false → Admitted o start → start.destination ≠ .directory →
    ∀ i < o.badblockPasses, PassReached start.scans i →
      (start.scans i).called.Steady (passBase (badblocksSpan o.mode) o.badblockPasses i)
        (badblocksSpan o.mode / o.badblockPasses)

/-- The run gets to its flow: it is admitted, its passes find nothing bad, and the head of a raw
disk is cleared. -/
def Prepared (o : CreateOpts) (start : StartCalls) : Prop :=
  Admitted o start ∧ (o.dryRun = false →
    (o.badblockPasses = 0 ∨ start.destination ≠ .directory) ∧
      (∀ i < o.badblockPasses, (start.scans i).called.ok = true) ∧
        (o.quickFormat = false → start.destination = .disk → o.mode = .dd → start.zero.ok = true))

theorem rises_admission (o : CreateOpts) (start : StartCalls) : (admission o start).Rises := by
  refine .of_pairwise ?_
  rw [admission_all]
  exact .nil

theorem rises_prepare : (prepare o start).Rises ↔ StartSteady o start := by
  unfold StartSteady
  cases dry : o.dryRun with
  | true =>
    rw [prepare_dryRun dry]
    exact ⟨nofun, fun _ => rises_pure ()⟩
  | false =>
    have zeroed : (onlyIf (!o.quickFormat && start.destination = .disk && o.mode = .dd)
        (zeroHead 10 5 start.zero)).Rises :=
      rises_onlyIf.mpr fun _ => rises_zeroHead (by decide) start.zero
    rw [prepare_real dry, rises_bind, rises_bind, runBadblocks, rises_badblocksFrom,
      ← succeeds_admission, succeeds_iff]
    constructor
    · intro ⟨_, rises⟩ _ admitted whole i below reached
      exact (rises () admitted).1 whole i (Nat.zero_le i) (by omega)
        fun j _ before => reached j before
    · intro steady
      refine ⟨rises_admission o start, fun _ admitted => ⟨?_, fun _ _ => zeroed⟩⟩
      intro whole k _ below reached
      exact steady rfl admitted whole k (by omega) fun j before => reached j (Nat.zero_le j) before

/-- The run's parts up to its flow and then those of the flow. -/
theorem rises_prepared {flow : Step Unit} : (prepare o start >>= fun _ => flow).Rises ↔
    StartSteady o start ∧ ((prepare o start).succeeds = true → flow.Rises) := by
  rw [rises_bind, rises_prepare, succeeds_iff]
  exact and_congr_right fun _ => ⟨fun rest done => rest () done, fun rest _ done => rest done⟩

theorem succeeds_prepare : (prepare o start).succeeds = true ↔ Prepared o start := by
  unfold Prepared
  rw [← succeeds_admission]
  cases dry : o.dryRun with
  | true =>
    have admitted : (admission o start).succeeds = true := by
      rw [succeeds_admission, Admitted, dry]
      exact ⟨rfl, nofun⟩
    rw [prepare_dryRun dry]
    exact ⟨fun _ => ⟨admitted, nofun⟩, fun _ => rfl⟩
  | false =>
    rw [prepare_real dry, succeeds_bind, succeeds_bind, Bool.and_eq_true, Bool.and_eq_true,
      runBadblocks, succeeds_badblocksFrom, succeeds_onlyIf_iff, succeeds_zeroHead]
    simp only [Nat.zero_add, Nat.zero_le, forall_true_left, Bool.and_eq_true, Bool.not_eq_true',
      decide_eq_true_eq, and_assoc, and_imp]

end Start

/-! ### The flows -/

theorem rises_bind_stage {percent : Nat} {step : Step Unit} :
    (step >>= fun _ => stage percent).Rises ↔ step.Rises := by
  rw [rises_bind]
  exact and_iff_left fun _ _ => rises_stage percent

theorem steady_once (base span : Nat) : once.Steady base span := List.pairwise_singleton _ _

def DdCalls.Steady (o : CreateOpts) (calls : DdCalls) : Prop :=
  match calls.detected with
  | .failed => True
  | .vdisk => calls.vdiskReady = true → o.dryRun = false → calls.convert.Steady 15 (writeSpan o)
  | .plain => calls.vhdAdjust = true →
      calls.write.Steady 15 (writeSpan o) ∧
        (calls.write.ok = true → o.verify = true → o.dryRun = false → calls.verify.Steady 85 15)

theorem rises_vdiskWrite {o : CreateOpts} {calls : DdCalls} :
    (vdiskWrite o calls).Rises ↔
      (calls.vdiskReady = true → o.dryRun = false → calls.convert.Steady 15 (writeSpan o)) := by
  unfold vdiskWrite
  rw [rises_must_bind]
  refine forall_congr' fun _ => ?_
  cases o.dryRun with
  | true =>
    rw [if_pos rfl, rises_within]
    exact ⟨nofun, fun _ => steady_once _ _⟩
  | false =>
    have compared : (must calls.compare >>= fun _ => within 85 15 once).Rises :=
      rises_must_bind.mpr fun _ => rises_within.mpr (steady_once 85 15)
    rw [if_neg (by decide), rises_within_bind]
    exact ⟨fun rises _ => rises.1, fun steady => ⟨steady rfl, fun _ =>
      rises_onlyIf.mpr fun _ => compared⟩⟩

theorem rises_flowDd {o : CreateOpts} {calls : DdCalls} :
    (flowDd o calls).Rises ↔ calls.Steady o := by
  unfold flowDd DdCalls.Steady
  cases calls.detected with
  | failed => exact ⟨fun _ => trivial, fun _ => rises_must false⟩
  | vdisk => exact rises_bind_stage.trans rises_vdiskWrite
  | plain =>
    dsimp only
    rw [rises_must_bind, rises_bind_stage, writeImage, rises_within_bind, rises_onlyIf, rises_within]
    simp only [Bool.and_eq_true, Bool.not_eq_true', and_imp]

def ExtractDirCalls.Steady (calls : ExtractDirCalls) : Prop :=
  calls.sizeGuard = true → calls.extract.Steady 0 90

theorem rises_flowExtractDir {o : CreateOpts} {calls : ExtractDirCalls} :
    (flowExtractDir o calls).Rises ↔ calls.Steady := by
  unfold flowExtractDir ExtractDirCalls.Steady
  rw [rises_must_bind, rises_within_bind]
  refine forall_congr' fun _ => and_iff_left fun _ => ?_
  exact rises_onlyIf_must_bind.mpr fun _ => rises_onlyIf_must_bind.mpr fun _ => rises_stage 100

namespace Linux

/-- The image is extracted to the new partition. -/
def ExtractDiskCalls.Copies (o : CreateOpts) (log : Bool) (calls : ExtractDiskCalls) : Prop :=
  calls.sizeGuard = true ∧ (o.dryRun && log) = false ∧ calls.partition = true ∧
    calls.node = true ∧ (o.quickFormat = false → calls.zero.ok = true) ∧ calls.format = true ∧
      (chainloads o = true → calls.syslinux = true) ∧ calls.mount = true

theorem rises_flowExtractDisk {o : CreateOpts} {log : Bool} {calls : ExtractDiskCalls} :
    (flowExtractDisk o log calls).Rises ↔
      (calls.Copies o log → calls.extract.Steady 8 74) := by
  have narrow : 2 ≤ 10 := by decide
  unfold flowExtractDisk ExtractDiskCalls.Copies
  cases o.dryRun && log with
  | true =>
    rw [if_pos rfl, rises_must_bind]
    exact ⟨nofun, fun _ _ => rises_pure ()⟩
  | false =>
    have copy : (within 8 74 calls.extract >>= fun _ =>
        onlyIf o.extendedLabel (must calls.autorun) >>= fun _ =>
          onlyIf o.persist (must calls.persist)).Rises ↔ calls.extract.Steady 8 74 := by
      rw [rises_within_bind]
      exact and_iff_left fun _ => rises_onlyIf_must_bind.mpr fun _ =>
        rises_onlyIf.mpr fun _ => rises_must calls.persist
    simp only [Bool.false_eq_true, if_false, rises_must_bind, rises_stage_bind,
      rises_zeroHead_bind narrow, rises_onlyIf_must_bind, rises_attempt_bind, rises_stage, copy,
      implies_true, and_true, true_and, and_imp, Bool.not_eq_true']

theorem rises_flowFormat (o : CreateOpts) (destination : Destination) (calls : FormatCalls) :
    (flowFormat o destination calls).Rises := by
  have narrow : 10 ≤ 10 := by decide
  unfold flowFormat
  split
  · exact rises_pure ()
  · split
    all_goals
      simp only [rises_must_bind, rises_stage_bind, rises_zeroHead_bind narrow,
        rises_onlyIf_must_bind, rises_stage, implies_true]

theorem rises_flowDos (o : CreateOpts) (destination : Destination) (calls : DosCalls) :
    (flowDos o destination calls).Rises := by
  unfold flowDos
  split
  · exact rises_pure ()
  · simp only [rises_must_bind, rises_stage_bind, rises_must, implies_true]

/-- The Windows files are extracted to the new partition. -/
def WindowsCalls.Copies (o : CreateOpts) (log : Bool) (calls : WindowsCalls) : Prop :=
  (o.fs = .fat32 ∨ o.fs = .ntfs) ∧ (o.dryRun && log) = false ∧ calls.check = true ∧
    (o.fs = .ntfs → calls.secondNode = true) ∧ calls.partition = true ∧ calls.node = true ∧
      (o.fs = .ntfs → calls.uefiNtfs = true) ∧ (o.quickFormat = false → calls.zero.ok = true) ∧
        calls.wipe = true ∧ calls.format = true ∧ calls.mount = true

theorem rises_flowWindows {o : CreateOpts} {log : Bool} {calls : WindowsCalls} :
    (flowWindows o log calls).Rises ↔ (calls.Copies o log → calls.extract.Steady 10 70) := by
  have narrow : 3 ≤ 10 := by decide
  unfold flowWindows WindowsCalls.Copies
  cases o.dryRun && log with
  | true =>
    rw [if_pos rfl, rises_must_bind]
    exact ⟨nofun, fun _ _ => rises_pure ()⟩
  | false =>
    have copy : (within 10 70 calls.extract >>= fun _ =>
        onlyIf o.wue (must calls.customize)).Rises ↔ calls.extract.Steady 10 70 := by
      rw [rises_within_bind]
      exact and_iff_left fun _ => rises_onlyIf.mpr fun _ => rises_must calls.customize
    simp only [Bool.false_eq_true, if_false, rises_must_bind, rises_stage_bind,
      rises_zeroHead_bind narrow, rises_onlyIf_must_bind, rises_attempt_bind, rises_stage, copy,
      implies_true, and_true, true_and, and_imp, Bool.not_eq_true', Bool.or_eq_true,
      decide_eq_true_eq]

def FlowSteady (o : CreateOpts) (calls : Calls) : Prop :=
  match o.mode with
  | .dd => calls.dd.Steady o
  | .extract =>
      if calls.start.destination = .directory then calls.extractDir.Steady
      else calls.extractDisk.Copies o calls.log → calls.extractDisk.extract.Steady 8 74
  | .windows =>
      calls.source = true → calls.windows.Copies o calls.log → calls.windows.extract.Steady 10 70
  | _ => True

theorem rises_flow {o : CreateOpts} {calls : Calls} :
    (flow o calls).Rises ↔ FlowSteady o calls := by
  unfold flow FlowSteady
  cases o.mode with
  | dd => exact rises_flowDd
  | extract =>
    dsimp only
    split
    · exact rises_flowExtractDir
    · exact rises_flowExtractDisk
  | format => exact iff_true_intro (rises_flowFormat o _ calls.format)
  | dos => exact iff_true_intro (rises_flowDos o _ calls.dos)
  | windows => exact rises_must_bind.trans (forall_congr' fun _ => rises_flowWindows)
  | unknown => exact iff_true_intro (rises_must false)

end Linux

namespace Macos

def ExtractDiskCalls.CopySteady (o : CreateOpts) (span : Nat) (calls : ExtractDiskCalls)
    (rest : Prop) : Prop :=
  calls.extract.Steady 8 span ∧ (calls.extract.ok = true →
    (o.extendedLabel = true → calls.autorun = true) → (o.persist = true → calls.persist = true) → rest)

/-- The image is extracted to a new partition, or staged and copied to one. -/
def ExtractDiskCalls.Steady (o : CreateOpts) (calls : ExtractDiskCalls) : Prop :=
  calls.sizeGuard = true → o.dryRun = false → calls.partition = true → calls.node = true →
    (o.quickFormat = false → calls.zero.ok = true) →
      if o.fs = .ext ∨ o.fs = .ntfs then
        calls.scratch = true → (o.fs = .ntfs → calls.format = true) →
          calls.CopySteady o 52 (o.fs ≠ .ext → calls.populate.Steady 60 28)
      else
        calls.format = true → ((o.dosScheme && o.fs.isFat) = true → calls.syslinux = true) →
          calls.mount = true → calls.extract.Steady 8 74

theorem rises_copyTree_bind {o : CreateOpts} {span : Nat} {calls : ExtractDiskCalls}
    {next : Unit → Step Unit} :
    (copyTree o span calls >>= next).Rises ↔ calls.CopySteady o span (next ()).Rises := by
  unfold copyTree ExtractDiskCalls.CopySteady
  rw [bind_bind, rises_within_bind]
  simp only [bind_bind, rises_onlyIf_must_bind]

theorem rises_stagedTree_bind {o : CreateOpts} {calls : ExtractDiskCalls} {next : Step Unit}
    (rest : next.Rises) :
    (stagedTree o calls >>= fun _ => next).Rises ↔
      (calls.scratch = true → (o.fs = .ntfs → calls.format = true) →
        calls.CopySteady o 52 (o.fs ≠ .ext → calls.populate.Steady 60 28)) := by
  unfold stagedTree
  simp only [bind_bind, rises_must_bind, rises_onlyIf_must_bind, rises_stage_bind,
    rises_copyTree_bind, decide_eq_true_eq]
  refine forall_congr' fun _ => forall_congr' fun _ => iff_of_eq ?_
  congr 1
  by_cases ext : o.fs = .ext
  · simp only [ext, if_true, bind_bind, rises_must_bind, rises_onlyIf_must_bind, rises_stage_bind,
      rest, implies_true, ne_eq, not_true_eq_false, false_implies]
  · simp only [ext, if_false, bind_bind, rises_within_bind, rises_stage_bind, rest, implies_true,
      and_true, ne_eq, not_false_eq_true, forall_true_left]

theorem rises_mountedTree_bind {o : CreateOpts} {calls : ExtractDiskCalls} {next : Step Unit}
    (rest : next.Rises) :
    (mountedTree o calls >>= fun _ => next).Rises ↔
      (calls.format = true → ((o.dosScheme && o.fs.isFat) = true → calls.syslinux = true) →
        calls.mount = true → calls.extract.Steady 8 74) := by
  unfold mountedTree
  simp only [bind_bind, rises_must_bind, rises_onlyIf_must_bind, rises_stage_bind,
    rises_copyTree_bind, ExtractDiskCalls.CopySteady, rest, implies_true, and_true]

theorem rises_flowExtractDisk {o : CreateOpts} {calls : ExtractDiskCalls} :
    (flowExtractDisk o calls).Rises ↔ calls.Steady o := by
  have narrow : 2 ≤ 10 := by decide
  have last : (must calls.mbr >>= fun _ => stage 100).Rises :=
    rises_must_bind.mpr fun _ => rises_stage 100
  unfold flowExtractDisk ExtractDiskCalls.Steady
  rw [rises_must_bind]
  refine forall_congr' fun _ => ?_
  cases o.dryRun with
  | true => exact ⟨nofun, fun _ => rises_must calls.target⟩
  | false =>
    simp only [Bool.false_eq_true, if_false, rises_must_bind, rises_stage_bind,
      rises_zeroHead_bind narrow, Bool.not_eq_true', forall_true_left, Bool.or_eq_true,
      decide_eq_true_eq]
    refine forall_congr' fun _ => forall_congr' fun _ => forall_congr' fun _ => ?_
    split
    · exact rises_stagedTree_bind last
    · exact rises_mountedTree_bind last

theorem rises_flowFormat (o : CreateOpts) (destination : Destination) (calls : FormatCalls) :
    (flowFormat o destination calls).Rises := by
  have narrow : 10 ≤ 10 := by decide
  unfold flowFormat
  split
  · exact rises_must calls.target
  · split
    all_goals
      simp only [rises_must_bind, rises_stage_bind, rises_zeroHead_bind narrow,
        rises_onlyIf_must_bind, rises_stage, implies_true]

theorem rises_flowDos (o : CreateOpts) (calls : DosCalls) : (flowDos o calls).Rises := by
  unfold flowDos
  split
  · exact rises_must calls.target
  · simp only [rises_must_bind, rises_stage_bind, rises_stage, implies_true]

/-- The partitions and the file system of a Windows stick are made. -/
def WindowsCalls.Laid (o : CreateOpts) (calls : WindowsCalls) : Prop :=
  calls.check = true ∧ calls.partition = true ∧ calls.node = true ∧
    (o.fs = .ntfs → (calls.secondNode && calls.uefiNtfs) = true) ∧
      (o.quickFormat = false → calls.zero.ok = true) ∧ calls.wipe = true ∧ calls.format = true

/-- The staged tree may be copied. -/
def WindowsCalls.Staged (o : CreateOpts) (calls : WindowsCalls) : Prop :=
  calls.extract.ok = true ∧ (o.wue = true → calls.customize = true) ∧ calls.verifyTree = true

def WindowsCalls.ScratchSteady (calls : WindowsCalls) : Prop :=
  calls.imageScratch = true → calls.copyOut.Steady 50 19 ∧
    (calls.copyOut.ok = true → calls.copied = true → calls.writeCopy.Steady 69 19)

def WindowsCalls.ImageSteady (calls : WindowsCalls) : Prop :=
  match calls.direct with
  | none => calls.ScratchSteady
  | some direct => direct.Steady 50 38 ∧ (direct.ok = false → calls.ScratchSteady)

def WindowsCalls.Steady (o : CreateOpts) (calls : WindowsCalls) : Prop :=
  (o.fs = .fat32 ∨ o.fs = .ntfs) → o.dryRun = false → calls.Laid o →
    if o.fs = .fat32 then calls.mount = true → calls.extract.Steady 10 70
    else if streams o calls then
      calls.scratch = true → calls.extract.Steady 10 22 ∧
        (calls.Staged o → calls.populate.Steady 35 15 ∧
          (calls.populate.ok = true → calls.ImageSteady))
    else calls.scratch = true → calls.extract.Steady 10 45 ∧
      (calls.Staged o → calls.populate.Steady 58 30)

theorem rises_layDown_bind {o : CreateOpts} {calls : WindowsCalls} {next : Unit → Step Unit} :
    (layDown o calls >>= next).Rises ↔ (calls.Laid o → (next ()).Rises) := by
  have narrow : 3 ≤ 10 := by decide
  unfold layDown WindowsCalls.Laid
  simp only [bind_bind, rises_must_bind, rises_stage_bind, rises_zeroHead_bind narrow,
    rises_onlyIf_must_bind, Bool.not_eq_true', decide_eq_true_eq, and_imp]

theorem succeeds_beforeInstallImage {o : CreateOpts} {calls : WindowsCalls} :
    (beforeInstallImage o calls).succeeds = true ↔ calls.Laid o ∧ calls.scratch = true ∧
      calls.Staged o ∧ calls.populate.ok = true := by
  unfold beforeInstallImage layDown stagedTreeBare WindowsCalls.Laid WindowsCalls.Staged
  simp only [succeeds_bind, succeeds_must, succeeds_stage, succeeds_onlyIf_iff, succeeds_zeroHead,
    succeeds_within, Bool.and_eq_true, Bool.not_eq_true', decide_eq_true_eq, true_and, and_true,
    and_assoc]

theorem rises_writeScratchCopy {calls : WindowsCalls} :
    (writeScratchCopy calls).Rises ↔ calls.ScratchSteady := by
  unfold writeScratchCopy WindowsCalls.ScratchSteady
  simp only [rises_must_bind, rises_within_bind, rises_within]

theorem rises_writeInstallImage {calls : WindowsCalls} :
    (writeInstallImage calls).Rises ↔ calls.ImageSteady := by
  unfold writeInstallImage WindowsCalls.ImageSteady
  cases calls.direct with
  | none => exact rises_writeScratchCopy
  | some direct =>
    dsimp only
    rw [rises_attempt_bind, rises_within, succeeds_within, rises_onlyIf, rises_writeScratchCopy,
      Bool.not_eq_true']

theorem rises_fillTree {o : CreateOpts} {calls : WindowsCalls} :
    (fillTree o calls).Rises ↔ (calls.Laid o →
      if o.fs = .fat32 then calls.mount = true → calls.extract.Steady 10 70
      else if streams o calls then
        calls.scratch = true → calls.extract.Steady 10 22 ∧
          (calls.Staged o → calls.populate.Steady 35 15 ∧
            (calls.populate.ok = true → calls.ImageSteady))
      else calls.scratch = true → calls.extract.Steady 10 45 ∧
        (calls.Staged o → calls.populate.Steady 58 30)) := by
  unfold fillTree WindowsCalls.Staged
  split
  · rw [rises_layDown_bind, fatTree]
    simp only [rises_must_bind, rises_within_bind, rises_onlyIf_must_bind, rises_stage_bind,
      rises_must, implies_true, and_true]
  · split
    · rw [beforeInstallImage, stagedTreeBare]
      simp only [bind_bind, rises_layDown_bind, rises_must_bind, rises_within_bind,
        rises_onlyIf_must_bind, rises_bind_stage, rises_writeInstallImage, and_imp]
    · rw [rises_layDown_bind, wholeTree]
      simp only [rises_must_bind, rises_within_bind, rises_onlyIf_must_bind, rises_stage,
        implies_true, and_true, and_imp]

theorem rises_flowWindows {o : CreateOpts} {calls : WindowsCalls} :
    (flowWindows o calls).Rises ↔ calls.Steady o := by
  unfold flowWindows WindowsCalls.Steady
  rw [rises_must_bind, Bool.or_eq_true, decide_eq_true_eq, decide_eq_true_eq]
  refine forall_congr' fun _ => ?_
  cases o.dryRun with
  | true => exact ⟨nofun, fun _ => rises_must calls.target⟩
  | false =>
    rw [if_neg (by decide), rises_bind_stage, rises_fillTree]
    exact ⟨fun rises _ => rises, fun rises => rises rfl⟩

def FlowSteady (o : CreateOpts) (calls : Calls) : Prop :=
  match o.mode with
  | .dd => calls.dd.Steady o
  | .extract =>
      if calls.start.destination = .directory then calls.extractDir.Steady
      else calls.extractDisk.Steady o
  | .windows => calls.source = true → calls.windows.Steady o
  | _ => True

theorem rises_flow {o : CreateOpts} {calls : Calls} :
    (flow o calls).Rises ↔ FlowSteady o calls := by
  unfold flow FlowSteady
  cases o.mode with
  | dd => exact rises_flowDd
  | extract =>
    dsimp only
    split
    · exact rises_flowExtractDir
    · exact rises_flowExtractDisk
  | format => exact iff_true_intro (rises_flowFormat o _ calls.format)
  | dos => exact iff_true_intro (rises_flowDos o calls.dos)
  | windows => exact rises_must_bind.trans (forall_congr' fun _ => rises_flowWindows)
  | unknown => exact iff_true_intro (rises_must false)

end Macos

end Rufux.Create
