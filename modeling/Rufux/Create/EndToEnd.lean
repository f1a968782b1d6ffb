import Rufux.Create.Steady

/-!
The progress of whole runs on both ports: when it climbs to 100 and never falls, in terms of the
options and of what the calls report.
-/

namespace Rufux.Create

open Library Reporting

theorem must_bind_all (ok : Bool) (next : Unit → Step Unit) :
    (must ok >>= next).all = if ok then (next ()).all else [] := by
  cases ok <;> rfl

theorem stage_bind_all {percent : Nat} (inside : percent ≤ 100) (next : Unit → Step Unit) :
    (stage percent >>= next).all = percent :: (next ()).all := by
  unfold stage
  rw [if_pos inside]
  rfl

theorem onlyIf_must_bind_all (wanted ok : Bool) (next : Unit → Step Unit) :
    (onlyIf wanted (must ok) >>= next).all = if !wanted || ok then (next ()).all else [] := by
  cases wanted <;> cases ok <;> rfl

theorem closes_final : Closes 100 (stage 100) := closes_report 100

theorem closes_flowDd (o : CreateOpts) (calls : DdCalls) : Closes 100 (flowDd o calls) := by
  unfold flowDd
  split
  · exact closes_fails
  · exact Closes.bind fun _ => closes_final
  · exact Closes.bind fun _ => Closes.bind fun _ => closes_final

theorem closes_flowExtractDir (o : CreateOpts) (calls : ExtractDirCalls) :
    Closes 100 (flowExtractDir o calls) := by
  refine Closes.bind fun _ => ?_
  refine Closes.bind fun _ => ?_
  refine Closes.bind fun _ => ?_
  refine Closes.bind fun _ => ?_
  exact closes_final

/-- The first milestone of a flow that the passes can have gone beyond, when it is reached. -/
def firstMilestone (o : CreateOpts) (destination : Destination) (extracts windows : Bool) :
    Option Nat :=
  match o.mode with
  | .extract => if destination ≠ .directory ∧ extracts then some 4 else none
  | .windows => if windows then some 5 else none
  | _ => none

/-- Where the flow of each mode starts. -/
def lowest (o : CreateOpts) (destination : Destination) : Nat :=
  match o.mode with
  | .dd => 15
  | .extract => if destination = .directory then 0 else 4
  | .format => 30
  | .dos => 10
  | .windows => 5
  | .unknown => 100

/-- The flows that start low report their first milestone before anything else. -/
def Opens (o : CreateOpts) (destination : Destination) (extracts windows : Bool)
    (flow : Step Unit) : Prop :=
  match o.mode with
  | .extract => destination ≠ .directory → ∃ rest, flow.all = if extracts then 4 :: rest else []
  | .windows => ∃ rest, flow.all = if windows then 5 :: rest else []
  | .unknown => flow.all = []
  | _ => True

section Start

variable {o : CreateOpts} {start : StartCalls} {extracts windows : Bool} {flow : Step Unit}

theorem Opens.milestone (opens : Opens o start.destination extracts windows flow) {first : Nat}
    (reached : firstMilestone o start.destination extracts windows = some first) :
    first ∈ flow.all := by
  unfold firstMilestone at reached
  unfold Opens at opens
  split at reached
  · rename_i mode
    rw [mode] at opens
    split at reached
    · rename_i disk
      obtain ⟨rest, starts⟩ := opens disk.1
      obtain rfl := Option.some.inj reached
      rw [starts, if_pos disk.2]
      exact List.mem_cons_self
    · nomatch reached
  · rename_i mode
    rw [mode] at opens
    split at reached
    · rename_i partitions
      obtain ⟨rest, starts⟩ := opens
      obtain rfl := Option.some.inj reached
      rw [starts, if_pos partitions]
      exact List.mem_cons_self
    · nomatch reached
  · nomatch reached

/-- Nothing that is reported before the flow lies above where it starts. -/
theorem Opens.below (opens : Opens o start.destination extracts windows flow)
    (fits : StartFits o start) (rises : (prepare o start).Rises)
    (low : o.dryRun = false → ∀ first,
      firstMilestone o start.destination extracts windows = some first → LowStart o start first)
    (loud : flow.all ≠ []) : ∀ percent ∈ (prepare o start).all, percent ≤ lowest o start.destination := by
  have bounds := (climbs_prepare fits rises).2
  unfold Opens at opens
  unfold lowest
  unfold firstMilestone at low
  cases mode : o.mode with
  | dd =>
    rw [if_pos mode] at bounds
    exact fun percent inside => (bounds percent inside).2
  | extract =>
    rw [mode] at opens low
    dsimp only at opens low ⊢
    by_cases directory : start.destination = .directory
    · rw [if_pos directory, prepare_directory (by rw [mode]; decide) directory]
      exact nofun
    · rw [if_neg directory]
      obtain ⟨rest, starts⟩ := opens directory
      have partitions : extracts = true := by
        by_contra never
        rw [if_neg never] at starts
        exact loud starts
      rw [if_pos ⟨directory, partitions⟩] at low
      exact prepare_le (by rw [mode]; decide) fun real => low real 4 rfl
  | format | dos =>
    rw [if_neg (by rw [mode]; decide)] at bounds
    dsimp only
    exact fun percent inside => Nat.le_trans (bounds percent inside).2 (by decide)
  | windows =>
    rw [mode] at opens low
    obtain ⟨rest, starts⟩ := opens
    have partitions : windows = true := by
      by_contra never
      rw [if_neg never] at starts
      exact loud starts
    dsimp only at low
    rw [if_pos partitions] at low
    exact prepare_le (by rw [mode]; decide) fun real => low real 5 rfl
  | unknown =>
    rw [mode] at opens
    exact absurd opens loud

end Start

namespace Linux

variable {o : CreateOpts} {calls : Calls}

/-- The flow gets as far as the partition table. -/
def ExtractDiskCalls.partitions (o : CreateOpts) (log : Bool) (calls : ExtractDiskCalls) : Bool :=
  calls.sizeGuard && !(o.dryRun && log) && calls.partition

def WindowsCalls.partitions (o : CreateOpts) (log : Bool) (calls : WindowsCalls) : Bool :=
  (o.fs = .fat32 || o.fs = .ntfs) && !(o.dryRun && log) && calls.check &&
    (!decide (o.fs = .ntfs) || calls.secondNode) && calls.partition

/-- The first milestone of the flow where it can lie below the passes. -/
def milestone (o : CreateOpts) (calls : Calls) : Option Nat :=
  firstMilestone o calls.start.destination (calls.extractDisk.partitions o calls.log)
    (calls.source && calls.windows.partitions o calls.log)

/-- The run ends with a plan and reports nothing. -/
def PlansOnly (o : CreateOpts) (calls : Calls) : Prop :=
  o.dryRun = true ∧
    match o.mode with
    | .extract => calls.start.destination ≠ .directory ∧ calls.extractDisk.sizeGuard = true ∧
        calls.log = true
    | .format => True
    | .dos => True
    | .windows => calls.source = true ∧ (o.fs = .fat32 ∨ o.fs = .ntfs) ∧ calls.log = true
    | _ => False

/-- What a run must meet for its progress to climb: no call reports less than it did, the
bad-block passes are few and stay below the first milestone after them, and the run is no mere
plan. -/
structure Fits (o : CreateOpts) (calls : Calls) : Prop where
  startSteady : StartSteady o calls.start
  steady : Prepared o calls.start → FlowSteady o calls
  start : StartFits o calls.start
  low : o.dryRun = false → Prepared o calls.start →
    ∀ first, milestone o calls = some first → LowStart o calls.start first
  real : ¬PlansOnly o calls

theorem Fits.rises (fits : Fits o calls) : (rufuxCreate o calls).Rises :=
  rises_prepared.mpr ⟨fits.startSteady, fun done =>
    rises_flow.mpr (fits.steady (succeeds_prepare.mp done))⟩

theorem flowExtractDisk_all (o : CreateOpts) (log : Bool) (calls : ExtractDiskCalls) :
    ∃ rest, (flowExtractDisk o log calls).all = if calls.partitions o log then 4 :: rest else [] := by
  unfold flowExtractDisk ExtractDiskCalls.partitions
  rw [must_bind_all]
  cases calls.sizeGuard with
  | false => exact ⟨[], rfl⟩
  | true =>
    cases o.dryRun && log with
    | true => exact ⟨[], rfl⟩
    | false =>
      simp only [if_true, Bool.false_eq_true, if_false]
      rw [must_bind_all]
      cases calls.partition with
      | false => exact ⟨[], rfl⟩
      | true => exact ⟨_, stage_bind_all (by decide) _⟩

theorem flowWindows_all (o : CreateOpts) (log : Bool) (calls : WindowsCalls) :
    ∃ rest, (flowWindows o log calls).all = if calls.partitions o log then 5 :: rest else [] := by
  unfold flowWindows WindowsCalls.partitions
  rw [must_bind_all]
  cases decide (o.fs = .fat32) || decide (o.fs = .ntfs) with
  | false => exact ⟨[], rfl⟩
  | true =>
    cases o.dryRun && log with
    | true => exact ⟨[], rfl⟩
    | false =>
      simp only [if_true, Bool.false_eq_true, if_false]
      rw [must_bind_all]
      cases calls.check with
      | false => exact ⟨[], rfl⟩
      | true =>
        simp only [if_true]
        rw [onlyIf_must_bind_all]
        cases !decide (o.fs = .ntfs) || calls.secondNode with
        | false => exact ⟨[], rfl⟩
        | true =>
          simp only [if_true]
          rw [must_bind_all]
          cases calls.partition with
          | false => exact ⟨[], rfl⟩
          | true => exact ⟨_, stage_bind_all (by decide) _⟩

theorem flow_opens (o : CreateOpts) (calls : Calls) : Opens o calls.start.destination
    (calls.extractDisk.partitions o calls.log)
    (calls.source && calls.windows.partitions o calls.log) (flow o calls) := by
  unfold Opens flow
  cases o.mode with
  | dd | format | dos => trivial
  | extract =>
    intro disk
    simp only [if_neg disk]
    exact flowExtractDisk_all o calls.log calls.extractDisk
  | windows =>
    dsimp only
    rw [must_bind_all]
    cases calls.source with
    | false => exact ⟨[], rfl⟩
    | true => exact flowWindows_all o calls.log calls.windows
  | unknown => rfl

theorem climbs_flow (o : CreateOpts) (calls : Calls) :
    Climbs (lowest o calls.start.destination) 100 (flow o calls) := by
  unfold lowest flow
  cases o.mode with
  | dd => exact climbs_flowDd o calls.dd
  | extract =>
    dsimp only
    split
    · exact climbs_flowExtractDir o calls.extractDir
    · exact climbs_flowExtractDisk o calls.log calls.extractDisk
  | format => exact climbs_flowFormat o calls.start.destination calls.format
  | dos => exact climbs_flowDos o calls.start.destination calls.dos
  | windows => exact climbs_must_bind fun _ => climbs_flowWindows o calls.log calls.windows
  | unknown => exact climbs_must _

theorem closes_flowExtractDisk {log : Bool} {calls : ExtractDiskCalls}
    (real : calls.sizeGuard = true → (o.dryRun && log) = false) :
    Closes 100 (flowExtractDisk o log calls) := by
  unfold flowExtractDisk
  cases guarded : calls.sizeGuard with
  | false => exact closes_fails
  | true =>
    rw [must_true_bind, if_neg (by rw [real guarded]; decide)]
    iterate 12 refine Closes.bind fun _ => ?_
    exact closes_final

theorem closes_flowFormat {destination : Destination} {calls : FormatCalls}
    (real : o.dryRun = false) : Closes 100 (flowFormat o destination calls) := by
  unfold flowFormat
  rw [if_neg (by rw [real]; decide)]
  split
  · iterate 8 refine Closes.bind fun _ => ?_
    exact closes_final
  · exact Closes.bind fun _ => closes_final

theorem closes_flowDos {destination : Destination} {calls : DosCalls}
    (real : o.dryRun = false) : Closes 100 (flowDos o destination calls) := by
  unfold flowDos
  rw [if_neg (by rw [real]; decide)]
  iterate 8 refine Closes.bind fun _ => ?_
  dsimp only
  generalize (calls.copyFiles && calls.unmount && calls.bootRecords) = ok
  cases ok with
  | false => exact closes_fails
  | true => exact fun _ _ => rfl

theorem closes_flowWindows {log : Bool} {calls : WindowsCalls}
    (real : o.fs = .fat32 ∨ o.fs = .ntfs → (o.dryRun && log) = false) :
    Closes 100 (flowWindows o log calls) := by
  unfold flowWindows
  cases kind : decide (o.fs = .fat32) || decide (o.fs = .ntfs) with
  | false => exact closes_fails
  | true =>
    have listed : o.fs = .fat32 ∨ o.fs = .ntfs := by simpa using kind
    rw [must_true_bind, if_neg (by rw [real listed]; decide)]
    iterate 15 refine Closes.bind fun _ => ?_
    exact closes_final

theorem closes_flow (real : ¬PlansOnly o calls) : Closes 100 (flow o calls) := by
  unfold PlansOnly at real
  unfold flow
  cases mode : o.mode with
  | dd => exact closes_flowDd o calls.dd
  | extract =>
    rw [mode] at real
    dsimp only
    split
    · exact closes_flowExtractDir o calls.extractDir
    · rename_i disk
      refine closes_flowExtractDisk fun guarded => ?_
      by_contra plan
      obtain ⟨dry, log⟩ := Bool.and_eq_true_iff.mp (Bool.not_eq_false _ ▸ plan)
      exact real ⟨dry, disk, guarded, log⟩
  | format =>
    rw [mode] at real
    exact closes_flowFormat (Bool.not_eq_true _ ▸ fun dry => real ⟨dry, trivial⟩)
  | dos =>
    rw [mode] at real
    exact closes_flowDos (Bool.not_eq_true _ ▸ fun dry => real ⟨dry, trivial⟩)
  | windows =>
    rw [mode] at real
    dsimp only
    cases source : calls.source with
    | false => exact closes_fails
    | true =>
      refine closes_flowWindows fun listed => ?_
      by_contra plan
      obtain ⟨dry, log⟩ := Bool.and_eq_true_iff.mp (Bool.not_eq_false _ ▸ plan)
      exact real ⟨dry, source, listed, log⟩
  | unknown => exact closes_fails

theorem plan_silent (plan : PlansOnly o calls) :
    (rufuxCreate o calls).outcome = some () ∧ (rufuxCreate o calls).all = [] := by
  obtain ⟨dry, kind⟩ := plan
  have started : rufuxCreate o calls = flow o calls := by
    unfold rufuxCreate
    rw [prepare_dryRun dry]
    rfl
  rw [started]
  unfold flow
  cases mode : o.mode with
  | dd | unknown =>
    rw [mode] at kind
    exact kind.elim
  | extract =>
    rw [mode] at kind
    obtain ⟨disk, guarded, log⟩ := kind
    simp only [if_neg disk, flowExtractDisk, guarded, dry, log]
    exact ⟨rfl, rfl⟩
  | format =>
    simp only [flowFormat, dry]
    exact ⟨rfl, rfl⟩
  | dos =>
    simp only [flowDos, dry]
    exact ⟨rfl, rfl⟩
  | windows =>
    rw [mode] at kind
    obtain ⟨source, listed, log⟩ := kind
    have fs : (decide (o.fs = .fat32) || decide (o.fs = .ntfs)) = true := by simpa using listed
    simp only [flowWindows, source, dry, log, fs]
    exact ⟨rfl, rfl⟩

theorem monotone_iff (o : CreateOpts) (calls : Calls) :
    Monotone (rufuxCreate o calls) ↔ Fits o calls := by
  constructor
  · rintro ⟨sorted, _, ends⟩
    obtain ⟨start, later⟩ := start_of_sorted sorted
    obtain ⟨startSteady, steady⟩ := rises_prepared.mp (.of_pairwise sorted)
    refine ⟨startSteady, fun prepared => rises_flow.mp (steady (succeeds_prepare.mpr prepared)),
      start, fun real prepared first reached => ?_, fun plan => ?_⟩
    · exact later first ((flow_opens o calls).milestone reached) real (succeeds_prepare.mpr prepared)
    · obtain ⟨done, silent⟩ := plan_silent plan
      have last := ends done
      rw [silent] at last
      nomatch last
  · intro fits
    obtain ⟨sorted, bounds⟩ := climbs_run fits.start (fun _ => climbs_flow o calls) fits.rises
      fun prepared => (flow_opens o calls).below fits.start fits.rises.left
        fun real => fits.low real (succeeds_prepare.mp prepared)
    refine ⟨sorted, bounds, fun done => ?_⟩
    have closes : Closes 100 (rufuxCreate o calls) := Closes.bind fun _ => closes_flow fits.real
    exact closes () done

end Linux

namespace Macos

variable {o : CreateOpts} {calls : Calls}

/-- The flow gets as far as the partition table. -/
def ExtractDiskCalls.partitions (o : CreateOpts) (calls : ExtractDiskCalls) : Bool :=
  calls.sizeGuard && !o.dryRun && calls.partition

def WindowsCalls.partitions (o : CreateOpts) (calls : WindowsCalls) : Bool :=
  (o.fs = .fat32 || o.fs = .ntfs) && !o.dryRun && calls.check && calls.partition

/-- The first milestone of the flow where it can lie below the passes. -/
def milestone (o : CreateOpts) (calls : Calls) : Option Nat :=
  firstMilestone o calls.start.destination (calls.extractDisk.partitions o)
    (calls.source && calls.windows.partitions o)

/-- The run ends with a plan and reports nothing. -/
def PlansOnly (o : CreateOpts) (calls : Calls) : Prop :=
  o.dryRun = true ∧
    match o.mode with
    | .extract => calls.start.destination ≠ .directory ∧ calls.extractDisk.sizeGuard = true ∧
        calls.extractDisk.target = true
    | .format => calls.format.target = true
    | .dos => calls.dos.target = true
    | .windows => calls.source = true ∧ (o.fs = .fat32 ∨ o.fs = .ntfs) ∧ calls.windows.target = true
    | _ => False

/-- The run gets to writing the install image on its own. -/
def InstallReached (o : CreateOpts) (calls : Calls) : Prop :=
  Prepared o calls.start ∧ o.mode = .windows ∧ calls.source = true ∧ o.dryRun = false ∧
    o.fs = .ntfs ∧ streams o calls.windows = true ∧ calls.windows.Laid o ∧
      calls.windows.scratch = true ∧ calls.windows.Staged o ∧ calls.windows.populate.ok = true

/-- What a run must meet for its progress to climb. Over the Linux port, a scratch copy that
replaces a failed direct write must not start below what that had reported. -/
structure Fits (o : CreateOpts) (calls : Calls) : Prop where
  startSteady : StartSteady o calls.start
  steady : Prepared o calls.start → FlowSteady o calls
  start : StartFits o calls.start
  low : o.dryRun = false → Prepared o calls.start →
    ∀ first, milestone o calls = some first → LowStart o calls.start first
  fallback : InstallReached o calls → FallbackFits calls.windows
  real : ¬PlansOnly o calls

/-- The run after the check for the boot disk. -/
def started (o : CreateOpts) (calls : Calls) : Step Unit := do
  prepare o calls.start
  flow o calls

theorem Fits.rises (fits : Fits o calls) : (started o calls).Rises :=
  rises_prepared.mpr ⟨fits.startSteady, fun done =>
    rises_flow.mpr (fits.steady (succeeds_prepare.mp done))⟩

theorem flowExtractDisk_all (o : CreateOpts) (calls : ExtractDiskCalls) :
    ∃ rest, (flowExtractDisk o calls).all = if calls.partitions o then 4 :: rest else [] := by
  unfold flowExtractDisk ExtractDiskCalls.partitions
  rw [must_bind_all]
  cases calls.sizeGuard with
  | false => exact ⟨[], rfl⟩
  | true =>
    cases o.dryRun with
    | true => exact ⟨[], rfl⟩
    | false =>
      simp only [if_true, Bool.false_eq_true, if_false]
      rw [must_bind_all]
      cases calls.partition with
      | false => exact ⟨[], rfl⟩
      | true => exact ⟨_, stage_bind_all (by decide) _⟩

theorem layDown_all (o : CreateOpts) (calls : WindowsCalls) :
    ∃ rest, (layDown o calls).all = if calls.check && calls.partition then 5 :: rest else [] := by
  unfold layDown
  rw [must_bind_all]
  cases calls.check with
  | false => exact ⟨[], rfl⟩
  | true =>
    simp only [if_true]
    rw [must_bind_all]
    cases calls.partition with
    | false => exact ⟨[], rfl⟩
    | true => exact ⟨_, stage_bind_all (by decide) _⟩

/-- Every way to fill the tree lays the partitions down first. -/
theorem fillTree_eq (o : CreateOpts) (calls : WindowsCalls) :
    ∃ next, fillTree o calls = layDown o calls >>= next := by
  unfold fillTree beforeInstallImage
  split
  · exact ⟨_, rfl⟩
  · split
    · exact ⟨_, bind_bind _ _ _⟩
    · exact ⟨_, rfl⟩

theorem bind_starts {first : Nat} {reached : Bool} {rest : List Nat} {step : Step Unit}
    {next : Unit → Step Unit} (starts : step.all = if reached then first :: rest else [])
    (fails : reached = false → step.outcome = none) :
    ∃ rest, (step >>= next).all = if reached then first :: rest else [] := by
  cases reached with
  | false =>
    rw [all_bind_none next (fails rfl)]
    exact ⟨rest, starts⟩
  | true =>
    cases done : step.outcome with
    | none =>
      rw [all_bind_none next done]
      exact ⟨rest, starts⟩
    | some value =>
      rw [all_bind next done, starts]
      exact ⟨_, rfl⟩

theorem layDown_fails {calls : WindowsCalls} (early : (calls.check && calls.partition) = false) :
    (layDown o calls).outcome = none := by
  unfold layDown
  cases check : calls.check with
  | false => rfl
  | true =>
    rw [check, Bool.true_and] at early
    rw [early]
    rfl

theorem flowWindows_all (o : CreateOpts) (calls : WindowsCalls) :
    ∃ rest, (flowWindows o calls).all = if calls.partitions o then 5 :: rest else [] := by
  unfold flowWindows WindowsCalls.partitions
  rw [must_bind_all]
  cases decide (o.fs = .fat32) || decide (o.fs = .ntfs) with
  | false => exact ⟨[], rfl⟩
  | true =>
    cases o.dryRun with
    | true =>
      simp only [if_true, Bool.not_true, Bool.and_false, Bool.false_and, Bool.false_eq_true, if_false]
      exact ⟨[], rfl⟩
    | false =>
      obtain ⟨next, filled⟩ := fillTree_eq o calls
      obtain ⟨rest, starts⟩ := layDown_all o calls
      simp only [if_true, Bool.false_eq_true, if_false, Bool.not_false, Bool.true_and]
      rw [filled, bind_bind]
      exact bind_starts starts layDown_fails

theorem flow_opens (o : CreateOpts) (calls : Calls) : Opens o calls.start.destination
    (calls.extractDisk.partitions o) (calls.source && calls.windows.partitions o) (flow o calls) := by
  unfold Opens flow
  cases o.mode with
  | dd | format | dos => trivial
  | extract =>
    intro disk
    simp only [if_neg disk]
    exact flowExtractDisk_all o calls.extractDisk
  | windows =>
    dsimp only
    rw [must_bind_all]
    cases calls.source with
    | false => exact ⟨[], rfl⟩
    | true => exact flowWindows_all o calls.windows
  | unknown => rfl

theorem climbs_flow {o : CreateOpts} {calls : Calls}
    (prepared : Prepared o calls.start)
    (fits : InstallReached o calls → FallbackFits calls.windows) :
    Climbs (lowest o calls.start.destination) 100 (flow o calls) := by
  unfold lowest flow
  cases mode : o.mode with
  | dd => exact climbs_flowDd o calls.dd
  | extract =>
    dsimp only
    split
    · exact climbs_flowExtractDir o calls.extractDir
    · exact climbs_flowExtractDisk o calls.extractDisk
  | format => exact climbs_flowFormat o calls.start.destination calls.format
  | dos => exact climbs_flowDos o calls.dos
  | windows =>
    exact climbs_must_bind fun source => climbs_flowWindows fun real ntfs streamed reached =>
      fits ⟨prepared, mode, source, real, ntfs, streamed, succeeds_beforeInstallImage.mp reached⟩
  | unknown => exact climbs_must _

theorem closes_flowExtractDisk {calls : ExtractDiskCalls}
    (real : calls.sizeGuard = true → calls.target = true → o.dryRun = false) :
    Closes 100 (flowExtractDisk o calls) := by
  unfold flowExtractDisk
  cases guarded : calls.sizeGuard with
  | false => exact closes_fails
  | true =>
    rw [must_true_bind]
    cases dry : o.dryRun with
    | true =>
      cases target : calls.target with
      | false => exact closes_fails
      | true => exact absurd (real guarded target) (by rw [dry]; decide)
    | false =>
      rw [if_neg (by decide)]
      iterate 4 refine Closes.bind fun _ => ?_
      split
      · iterate 2 refine Closes.bind fun _ => ?_
        exact closes_final
      · iterate 2 refine Closes.bind fun _ => ?_
        exact closes_final

theorem closes_flowFormat {destination : Destination} {calls : FormatCalls}
    (real : calls.target = true → o.dryRun = false) :
    Closes 100 (flowFormat o destination calls) := by
  unfold flowFormat
  cases dry : o.dryRun with
  | true =>
    cases target : calls.target with
    | false => exact closes_fails
    | true => exact absurd (real target) (by rw [dry]; decide)
  | false =>
    rw [if_neg (by decide)]
    split
    · iterate 8 refine Closes.bind fun _ => ?_
      exact closes_final
    · exact Closes.bind fun _ => closes_final

theorem closes_flowDos {calls : DosCalls} (real : calls.target = true → o.dryRun = false) :
    Closes 100 (flowDos o calls) := by
  unfold flowDos
  cases dry : o.dryRun with
  | true =>
    cases target : calls.target with
    | false => exact closes_fails
    | true => exact absurd (real target) (by rw [dry]; decide)
  | false =>
    rw [if_neg (by decide)]
    iterate 10 refine Closes.bind fun _ => ?_
    exact closes_final

theorem closes_flowWindows {calls : WindowsCalls}
    (real : o.fs = .fat32 ∨ o.fs = .ntfs → calls.target = true → o.dryRun = false) :
    Closes 100 (flowWindows o calls) := by
  unfold flowWindows
  cases kind : decide (o.fs = .fat32) || decide (o.fs = .ntfs) with
  | false => exact closes_fails
  | true =>
    have listed : o.fs = .fat32 ∨ o.fs = .ntfs := by simpa using kind
    rw [must_true_bind]
    cases dry : o.dryRun with
    | true =>
      cases target : calls.target with
      | false => exact closes_fails
      | true => exact absurd (real listed target) (by rw [dry]; decide)
    | false =>
      rw [if_neg (by decide)]
      exact Closes.bind fun _ => closes_final

theorem closes_flow (real : ¬PlansOnly o calls) : Closes 100 (flow o calls) := by
  have settled (never : ¬o.dryRun = true) : o.dryRun = false := by simpa using never
  unfold PlansOnly at real
  unfold flow
  cases mode : o.mode with
  | dd => exact closes_flowDd o calls.dd
  | extract =>
    rw [mode] at real
    dsimp only
    split
    · exact closes_flowExtractDir o calls.extractDir
    · rename_i disk
      exact closes_flowExtractDisk fun guarded target =>
        settled fun dry => real ⟨dry, disk, guarded, target⟩
  | format =>
    rw [mode] at real
    exact closes_flowFormat fun target => settled fun dry => real ⟨dry, target⟩
  | dos =>
    rw [mode] at real
    exact closes_flowDos fun target => settled fun dry => real ⟨dry, target⟩
  | windows =>
    rw [mode] at real
    dsimp only
    cases source : calls.source with
    | false => exact closes_fails
    | true =>
      exact closes_flowWindows fun listed target =>
        settled fun dry => real ⟨dry, source, listed, target⟩
  | unknown => exact closes_fails

theorem plan_silent (plan : PlansOnly o calls) :
    (started o calls).outcome = some () ∧ (started o calls).all = [] := by
  obtain ⟨dry, kind⟩ := plan
  have planned : started o calls = flow o calls := by
    unfold started
    rw [prepare_dryRun dry]
    rfl
  rw [planned]
  unfold flow
  cases mode : o.mode with
  | dd | unknown =>
    rw [mode] at kind
    exact kind.elim
  | extract =>
    rw [mode] at kind
    obtain ⟨disk, guarded, target⟩ := kind
    simp only [if_neg disk, flowExtractDisk, guarded, dry, target]
    exact ⟨rfl, rfl⟩
  | format =>
    rw [mode] at kind
    simp only [flowFormat, dry, kind]
    exact ⟨rfl, rfl⟩
  | dos =>
    rw [mode] at kind
    simp only [flowDos, dry, kind]
    exact ⟨rfl, rfl⟩
  | windows =>
    rw [mode] at kind
    obtain ⟨source, listed, target⟩ := kind
    have fs : (decide (o.fs = .fat32) || decide (o.fs = .ntfs)) = true := by simpa using listed
    simp only [flowWindows, source, dry, target, fs]
    exact ⟨rfl, rfl⟩

/-- The fallback fits where the reports of the direct write and of the scratch copy are sorted. -/
theorem fallback_of_sorted (sorted : (started o calls).all.Pairwise (· ≤ ·))
    (reached : InstallReached o calls) : FallbackFits calls.windows := by
  obtain ⟨prepared, mode, source, real, ntfs, streamed, before⟩ := reached
  have flow_sorted := sorted_of_bind_some sorted (succeeds_iff.mp (succeeds_prepare.mpr prepared))
  have windows : flow o calls = fillTree o calls.windows >>= fun _ => stage 100 := by
    unfold flow flowWindows
    simp only [mode, source, real, ntfs]
    rfl
  have filled : fillTree o calls.windows = beforeInstallImage o calls.windows >>= fun _ =>
      writeInstallImage calls.windows >>= fun _ => stage 90 := by
    unfold fillTree
    rw [if_neg (by rw [ntfs]; decide), if_pos streamed]
  rw [windows, filled] at flow_sorted
  have done := succeeds_iff.mp (succeeds_beforeInstallImage.mpr before)
  have tree_sorted := sorted_of_bind flow_sorted
  rw [all_bind _ done] at tree_sorted
  have image_sorted := sorted_of_bind (List.pairwise_append.mp tree_sorted).2.1
  intro direct given failed scratch count listed
  rw [writeInstallImage_all given, failed, if_neg (by decide)] at image_sorted
  have order := (List.pairwise_append.mp image_sorted).2.2 _ (List.mem_map_of_mem listed)
  refine ⟨fun other copied => ?_, fun ok done other written => ?_⟩
  · exact order _ (mem_writeScratchCopy.mpr ⟨scratch, .inl ⟨other, copied, rfl⟩⟩)
  · exact order _ (mem_writeScratchCopy.mpr ⟨scratch, .inr ⟨ok, done, other, written, rfl⟩⟩)

theorem started_monotone_iff (o : CreateOpts) (calls : Calls) :
    Monotone (started o calls) ↔ Fits o calls := by
  constructor
  · rintro ⟨sorted, _, ends⟩
    obtain ⟨start, later⟩ := start_of_sorted sorted
    obtain ⟨startSteady, steady⟩ := rises_prepared.mp (.of_pairwise sorted)
    refine ⟨startSteady, fun prepared => rises_flow.mp (steady (succeeds_prepare.mpr prepared)),
      start, fun real prepared first reached => ?_, fallback_of_sorted sorted, fun plan => ?_⟩
    · exact later first ((flow_opens o calls).milestone reached) real (succeeds_prepare.mpr prepared)
    · obtain ⟨done, silent⟩ := plan_silent plan
      have last := ends done
      rw [silent] at last
      nomatch last
  · intro fits
    obtain ⟨sorted, bounds⟩ := climbs_run fits.start
      (fun prepared => climbs_flow (succeeds_prepare.mp prepared) fits.fallback) fits.rises
      fun prepared => (flow_opens o calls).below fits.start fits.rises.left
        fun real => fits.low real (succeeds_prepare.mp prepared)
    refine ⟨sorted, bounds, fun done => ?_⟩
    have closes : Closes 100 (started o calls) := Closes.bind fun _ => closes_flow fits.real
    exact closes () done

theorem monotone_iff (o : CreateOpts) (calls : Calls) :
    Monotone (rufuxCreate o calls) ↔ (calls.bootDisk = false → Fits o calls) := by
  unfold rufuxCreate
  cases calls.bootDisk with
  | true => exact ⟨nofun, fun _ => ⟨.nil, nofun, nofun⟩⟩
  | false => exact (started_monotone_iff o calls).trans ⟨fun fits _ => fits, fun fits => fits rfl⟩

end Macos

/-- On both ports the progress of a run climbs to its end exactly when the calls it makes report
counts that do not fall, the bad-block passes are few and stay below the first milestone after
them, a scratch copy takes up where the failed write of the install image stopped, and the run is
no mere plan. -/
theorem progress_monotone (o : CreateOpts) :
    (∀ calls : Linux.Calls, Monotone (Linux.rufuxCreate o calls) ↔ Linux.Fits o calls) ∧
      ∀ calls : Macos.Calls,
        Monotone (Macos.rufuxCreate o calls) ↔ (calls.bootDisk = false → Macos.Fits o calls) :=
  ⟨Linux.monotone_iff o, Macos.monotone_iff o⟩

/-- An extraction to a disk with one bad-block pass, in which every call succeeds. -/
def scannedOpts : CreateOpts where
  mode := .extract
  dosScheme := false
  fs := .fat32
  wue := false
  splitWim := false
  persist := false
  quickFormat := true
  extendedLabel := false
  badblockPasses := 1
  verify := false
  ignoreSmart := false
  dryRun := false
  yes := true
  passesInt := by decide

def scannedCalls : Linux.Calls where
  start := ⟨.disk, true, true, true, fun _ => ⟨[], 1024, true, false⟩, ⟨0, by decide, true⟩⟩
  log := true
  source := true
  dd := ⟨.plain, true, once, once, true, once, true⟩
  extractDir := ⟨true, once, true, true⟩
  extractDisk := ⟨true, true, true, ⟨0, by decide, true⟩, true, true, true, once, true, true,
    true, true⟩
  format := ⟨true, true, ⟨0, by decide, true⟩, true, true, true⟩
  dos := ⟨true, true, true, true, true, true, true, true⟩
  windows := ⟨true, true, true, true, true, ⟨0, by decide, true⟩, true, true, true, once, true,
    true, true⟩

theorem scanned_falls :
    (Linux.rufuxCreate scannedOpts scannedCalls).all = [8, 4, 8, 82, 88, 90, 100] ∧
      ¬Monotone (Linux.rufuxCreate scannedOpts scannedCalls) := by
  have reports : (Linux.rufuxCreate scannedOpts scannedCalls).all = [8, 4, 8, 82, 88, 90, 100] := by
    decide +kernel
  refine ⟨reports, fun monotone => ?_⟩
  have sorted := monotone.1
  rw [reports] at sorted
  have order := List.rel_of_pairwise_cons sorted List.mem_cons_self
  omega

end Rufux.Create
