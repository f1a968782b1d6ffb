import Rufux.Create.Effects.Linux
import Rufux.Linux.Target

/-!
What a run of `rufux_create` on Linux can do to the target, whatever the system answers: nothing in
a dry run, nothing before the target guard, and nothing raw while the volume is mounted.
-/

namespace Rufux.Create.Effects.Linux

open Library Block

-- each step of a block doubles the size that is counted for its instance
set_option synthInstance.maxSize 1000000000

/-- What a call does: it asks, it touches the system around the target, it writes to the target
or into the mounted volume. -/
inductive Kind where
  | asks
  | settles
  | unmountsOwn
  | scans
  | clears
  | writes
  | mounts
  | fills
  | boots
  | copies
  deriving DecidableEq

@[reducible]
def Op.kind : Op → Kind
  | .unmountOwn _ => .unmountsOwn
  | .scriptFile | .rescan _ => .settles
  | .sfdisk .. | .writeBootCode _ | .mkfs .. | .writeMbr _ | .openTarget | .writeImage | .truncate
  | .convert | .wipeEdges _ | .runSyslinux _ | .dosPbr _ | .dosMbr _ | .writeUefiNtfs _
  | .ntfsfix _ => .writes
  | .pattern _ => .scans
  | .zeroHead .disk => .clears
  | .zeroHead _ => .writes
  | .mount _ | .unmount _ => .mounts
  | .extract false | .autorun false | .persist false => .copies
  | .extract true | .autorun true | .persist true | .splitExtract | .customize
  | .copyDos => .fills
  | .biosInstall => .boots
  | _ => .asks

/-- The calls of the kinds that pass a test. -/
@[reducible]
def Among (kinds : Kind → Bool) (op : Op) : Bool := kinds op.kind

theorem among_mono {kinds wider : Kind → Bool} (included : ∀ kind, kinds kind → wider kind)
    (op : Op) (among : Among kinds op = true) : Among wider op = true :=
  included op.kind among

instance uses_call {allowed : Op → Bool} {op : Op} [Holds (allowed op)] :
    (call op).Uses allowed :=
  inferInstanceAs ((ask op : Proc Bool).Uses allowed)

section Raw

/-- What the flows do while no volume is mounted. -/
@[reducible]
def raw : Kind → Bool
  | .asks | .settles | .copies | .writes => true
  | _ => false

instance raw_partition (node : Node) (o : PartOpts) :
    (rufuxPartition node o).Uses (Among raw) := by
  unfold rufuxPartition writeMbrBootcode
  infer_instance

instance raw_format (node : Node) (o : MkfsOpts) : (rufuxFormat node o).Uses (Among raw) := by
  unfold rufuxFormat formatter
  infer_instance

instance raw_installMbr (node : Node) (o : BootOpts) :
    (rufuxInstallMbr node o).Uses (Among raw) := by
  unfold rufuxInstallMbr
  infer_instance

instance raw_partitionSingle (o : CreateOpts) : (partitionSingle o).Uses (Among raw) := by
  unfold partitionSingle
  infer_instance

instance raw_chainload (o : CreateOpts) : (chainload o).Uses (Among raw) := by
  unfold chainload syslinuxBestEffort
  infer_instance

instance raw_makeVolume (o : CreateOpts) : (makeVolume o).Uses (Among raw) := by
  unfold makeVolume
  infer_instance

instance raw_makeDosVolume (o : CreateOpts) : (makeDosVolume o).Uses (Among raw) := by
  unfold makeDosVolume
  infer_instance

instance raw_dosRecords : dosRecords.Uses (Among raw) := by
  unfold dosRecords
  infer_instance

instance raw_makeWindowsVolume (o : CreateOpts) : (makeWindowsVolume o).Uses (Among raw) := by
  unfold makeWindowsVolume
  infer_instance

instance raw_flowDd (o : CreateOpts) : (flowDd o).Uses (Among raw) := by
  unfold flowDd rufuxVdiskWrite rufuxWriteImage
  infer_instance

instance raw_flowExtractDir (o : CreateOpts) : (flowExtractDir o).Uses (Among raw) := by
  unfold flowExtractDir vfatSizeGuard
  infer_instance

instance raw_flowFormat (o : CreateOpts) : (flowFormat o).Uses (Among raw) := by
  unfold flowFormat
  infer_instance

instance raw_clearNtfs : clearNtfs.Uses (Among raw) := by
  unfold clearNtfs
  infer_instance

end Raw

section Start

/-- The calls before any flow. -/
@[reducible]
def early : Kind → Bool
  | .asks | .settles | .unmountsOwn | .scans | .clears => true
  | _ => false

instance early_badblocks (allowFile : Bool) (pass left : Nat) :
    (badblocksFrom allowFile pass left).Uses (Among early) := by
  induction left generalizing pass with
  | zero =>
      unfold badblocksFrom
      infer_instance
  | succ left ih =>
      unfold badblocksFrom rufuxBadblocksWrite
      infer_instance

instance uses_countMounts {kinds : Kind → Bool} [Holds (kinds .asks)] (index room : Nat) :
    (countMounts index room).Uses (Among kinds) := by
  induction room generalizing index with
  | zero =>
      unfold countMounts
      infer_instance
  | succ room ih =>
      unfold countMounts
      infer_instance

instance uses_unmountEach {kinds : Kind → Bool} [Holds (kinds .unmountsOwn)] (index left : Nat) :
    (unmountEach index left).Uses (Among kinds) := by
  induction left generalizing index with
  | zero =>
      unfold unmountEach
      infer_instance
  | succ left ih =>
      unfold unmountEach
      infer_instance

instance early_prepare (o : CreateOpts) : (prepare o).Uses (Among early) := by
  unfold prepare unmountDisk runBadblocks
  infer_instance

end Start

section Mounts

/-- What can be done while no volume is mounted. -/
@[reducible]
def ashore : Kind → Bool
  | .mounts | .fills | .boots => false
  | _ => true

/-- What is done with the volume mounted. -/
@[reducible]
def inside : Kind → Bool
  | .asks | .fills | .boots => true
  | _ => false

instance inside_fillExtracted (o : CreateOpts) : (fillExtracted o).Uses (Among inside) := by
  unfold fillExtracted
  infer_instance

instance inside_fillWindows (o : CreateOpts) : (fillWindows o).Uses (Among inside) := by
  unfold fillWindows copyWindows
  infer_instance

/-- The volume that `rufux_create` mounts. Nothing is done with one that could not be unmounted. -/
inductive Volume where
  | free
  | mounted
  | stuck
  deriving DecidableEq

@[reducible]
def Volume.allows : Volume → Kind → Bool
  | .free => ashore
  | .mounted => inside
  | .stuck => fun _ => false

/-- The volume is mounted when it is free and unmounted when it is mounted. -/
def volume : Monitor Op Answer Volume where
  next stage event :=
    match stage, event with
    | .free, ⟨.mount _, ok⟩ => some (if ok then .mounted else .free)
    | .mounted, ⟨.unmount _, ok⟩ => some (if ok then .free else .stuck)
    | stage, ⟨op, _⟩ => if stage.allows op.kind then some stage else none

/-- Where the volume may be when a function has returned. -/
def Settled {α : Type} (value : Option α) (stage : Volume) : Prop :=
  (value.isSome = true → stage = .free) ∧ stage ≠ .mounted

section Rules

variable {α : Type}

end Rules

end Mounts

variable {σ : Type} (backend : (op : Op) → σ → Answer op × σ)

/-- The calls of a run of `rufux_create`, and whether it succeeded. -/
def created (o : CreateOpts) (source log : Bool) (state : σ) :
    CallProg.Outcome Op Answer (Option Unit) σ :=
  (rufuxCreate o source log).execute backend () state

/-- Every tool is there and every step goes well. -/
def agreeable : (op : Op) → Answer op
  | .ownMount _ | .smartFailed | .sourceOver4Gib | .isDir | .unknownType _ | .sameFile
  | .detectFailed | .isVdisk => false
  | _ => true

/-- A raw image for a removable disk. -/
def rawImage : CreateOpts where
  mode := "dd"
  scheme := "gpt"
  fs := "vfat"
  label := some "RUFUX"
  wue := none
  splitWimMb := 0
  persistMb := 0
  quickFormat := true
  extendedLabel := true
  badblockPasses := 0
  verify := false
  ignoreSmart := false
  dryRun := false
  allowFixed := false
  allowFile := false
  yes := true

section Guard

/-- The target guard has let a node through, with fixed disks allowed or not. -/
def passed (fixed : Bool) : CallEvent Op Answer → Bool
  | ⟨.checkTarget _ allowFixed _, ok⟩ => allowFixed == fixed && ok
  | _ => false

/-- The calls that leave the target as it is, and those before any flow. -/
@[reducible]
def beforeGuard : Kind → Bool
  | .writes | .fills | .boots => false
  | _ => true

section Steps

variable {fixed : Bool} {α : Type}

theorem opens_check (node : Node) (file : Bool) (rest : Unit → Proc α) :
    (call (.checkTarget node fixed file) >>= fun ok => must ok >>= rest).Opens (passed fixed)
      (Among beforeGuard) :=
  opens_ask rfl id (fun ok accepted => by simpa [passed] using accepted) rest

theorem opens_partition (node : Node) (o : PartOpts) :
    (rufuxPartition node o).Opens (passed o.allowFixed) (Among beforeGuard) := by
  refine Opens.bind_right (Uses.guarded inferInstance) fun _ => ?_
  refine Opens.bind_right (Uses.guarded inferInstance) fun _ => ?_
  refine Opens.bind_right (Uses.guarded inferInstance) fun _ => ?_
  exact opens_check node o.allowFile _

theorem opens_format (node : Node) (o : MkfsOpts) :
    (rufuxFormat node o).Opens (passed o.allowFixed) (Among beforeGuard) := by
  refine Opens.bind_right (Uses.guarded inferInstance) fun _ => ?_
  refine Opens.bind_right (Uses.guarded inferInstance) fun _ => ?_
  refine Opens.bind_right (Uses.guarded inferInstance) fun _ => ?_
  exact opens_check node o.allowFile _

theorem guarded_writeImage (o : WriteOpts) :
    (rufuxWriteImage o).Guarded (passed o.allowFixed) (Among beforeGuard) := by
  refine Guarded.bind (Uses.guarded inferInstance) fun _ => ?_
  refine Guarded.bind (Uses.guarded inferInstance) fun _ => ?_
  exact (opens_check .disk o.allowFile _).guarded

theorem guarded_vdiskWrite (o : WriteOpts) :
    (rufuxVdiskWrite o).Guarded (passed o.allowFixed) (Among beforeGuard) :=
  (opens_check .disk o.allowFile _).guarded

end Steps

variable (o : CreateOpts)

theorem opens_makeVolume : (makeVolume o).Opens (passed o.allowFixed) (Among beforeGuard) :=
  (opens_partition .disk (singlePartition o)).bind_left.bind_left

theorem opens_makeDosVolume :
    (makeDosVolume o).Opens (passed o.allowFixed) (Among beforeGuard) := by
  refine Opens.bind_right (Uses.guarded inferInstance) fun _ => ?_
  refine Opens.bind_right (Uses.guarded inferInstance) fun _ => ?_
  refine Opens.bind_right (Uses.guarded inferInstance) fun _ => ?_
  refine Opens.bind_right (Uses.guarded inferInstance) fun _ => ?_
  exact (opens_partition .disk { singlePartition o with scheme := "dos" }).bind_left

theorem opens_makeWindowsVolume :
    (makeWindowsVolume o).Opens (passed o.allowFixed) (Among beforeGuard) := by
  refine Opens.bind_right (Uses.guarded inferInstance) fun _ => ?_
  refine Opens.bind_right (Uses.guarded inferInstance) fun _ => ?_
  refine Opens.bind_right (Uses.guarded inferInstance) fun _ => ?_
  exact (opens_partition .disk (windowsPartition o)).bind_left

theorem guarded_flowDd : (flowDd o).Guarded (passed o.allowFixed) (Among beforeGuard) := by
  refine Guarded.bind (Uses.guarded inferInstance) fun _ => ?_
  refine Guarded.bind (Uses.guarded inferInstance) fun _ => ?_
  refine Guarded.bind (Uses.guarded inferInstance) fun _ => ?_
  refine Guarded.ite (fun _ => guarded_vdiskWrite o.writeOpts) fun _ => ?_
  refine Guarded.bind (Uses.guarded inferInstance) fun _ => ?_
  exact Guarded.bind (Uses.guarded inferInstance) fun _ => guarded_writeImage o.writeOpts

theorem guarded_flowExtractDir :
    (flowExtractDir o).Guarded (passed o.allowFixed) (Among beforeGuard) := by
  refine Uses.guarded ?_
  unfold flowExtractDir vfatSizeGuard
  infer_instance

theorem guarded_flowExtractDisk (log : Bool) :
    (flowExtractDisk o log).Guarded (passed o.allowFixed) (Among beforeGuard) := by
  unfold flowExtractDisk vfatSizeGuard
  refine Guarded.bind (Uses.guarded inferInstance) fun _ => Guarded.onlyIf fun _ => ?_
  exact (opens_makeVolume o).bind_guarded

theorem guarded_flowFormat : (flowFormat o).Guarded (passed o.allowFixed) (Among beforeGuard) := by
  refine Guarded.bind (Uses.guarded inferInstance) fun _ => ?_
  refine Guarded.ite (fun _ => Guarded.onlyIf fun _ => ?_) fun _ => Guarded.onlyIf fun _ => ?_
  · exact (opens_makeVolume o).bind_guarded
  · exact (opens_format .disk { fileSystem o o.fs with allowFile := true }).guarded

theorem guarded_flowDos : (flowDos o).Guarded (passed o.allowFixed) (Among beforeGuard) :=
  Guarded.onlyIf fun _ => (opens_makeDosVolume o).bind_guarded

theorem guarded_flowWindows (log : Bool) :
    (flowWindows o log).Guarded (passed o.allowFixed) (Among beforeGuard) := by
  refine Guarded.bind (Uses.guarded inferInstance) fun _ => Guarded.onlyIf fun _ => ?_
  exact (opens_makeWindowsVolume o).bind_guarded

theorem guarded_flow (source log : Bool) :
    (flow o source log).Guarded (passed o.allowFixed) (Among beforeGuard) := by
  unfold flow
  refine Guarded.ite (fun _ => guarded_flowDd o) fun _ => ?_
  refine Guarded.ite (fun _ => ?_) fun _ => ?_
  · refine Guarded.bind (Uses.guarded inferInstance) fun _ => ?_
    exact Guarded.ite (fun _ => guarded_flowExtractDir o) fun _ => guarded_flowExtractDisk o log
  refine Guarded.ite (fun _ => guarded_flowFormat o) fun _ => ?_
  refine Guarded.ite (fun _ => guarded_flowDos o) fun _ => ?_
  refine Guarded.ite (fun _ => ?_) fun _ => Uses.guarded inferInstance
  exact Guarded.bind (Uses.guarded inferInstance) fun _ => guarded_flowWindows o log

theorem guarded_rufuxCreate (source log : Bool) :
    (rufuxCreate o source log).Guarded (passed o.allowFixed) (Among beforeGuard) := by
  refine Guarded.bind (Uses.guarded ?_) fun _ => guarded_flow o.normalised source log
  exact (early_prepare _).mono fun op => among_mono (by rintro ⟨⟩ <;> decide) op

theorem passed_iff {fixed : Bool} {event : CallEvent Op Answer} :
    passed fixed event = true ↔ ∃ node file, event = ⟨.checkTarget node fixed file, true⟩ := by
  constructor
  · intro pass
    unfold passed at pass
    split at pass
    next node allowFixed file ok =>
      obtain ⟨same, held⟩ := Bool.and_eq_true_iff.mp pass
      obtain rfl := beq_iff_eq.mp same
      exact ⟨node, file, by rw [held]⟩
    next => exact absurd pass Bool.false_ne_true
  · rintro ⟨node, file, rfl⟩
    simp [passed]

/-- In every run each write to the target, save for the bad-block passes and the clearing of the
head before a raw image, comes after the target guard let a node of it through with the caller's
own word on fixed disks. -/
theorem guard_before_writes (source log : Bool) (state : σ)
    (before after : List (CallEvent Op Answer)) (event : CallEvent Op Answer)
    (split : (created backend o source log state).events = before ++ event :: after)
    (writes : beforeGuard event.1.kind = false) :
    ∃ node file, (⟨.checkTarget node o.allowFixed file, true⟩ : CallEvent Op Answer) ∈ before := by
  obtain ⟨earlier, member, opened⟩ :=
    (guarded_rufuxCreate o source log).execute backend () state split writes
  obtain ⟨node, file, rfl⟩ := passed_iff.mp opened
  exact ⟨node, file, member⟩

theorem guard_before_writes_raw_image :
    ∃ node file, (⟨.checkTarget node false file, true⟩ : CallEvent Op Answer) ∈
      (created (fun op (_ : Unit) => (agreeable op, ())) rawImage true true ()).events.take 12 :=
  guard_before_writes (fun op (_ : Unit) => (agreeable op, ())) rawImage true true () _
    ((created (fun op (_ : Unit) => (agreeable op, ())) rawImage true true ()).events.drop 13)
    ⟨.openTarget, true⟩ rfl rfl

end Guard

section Answers

variable (answers : (op : Op) → Answer op)

@[simp]
theorem answer_call (op : Op) (own : Unit) :
    answer answers (call op) own = (some (answers op), own) :=
  rfl

@[simp]
theorem asked_call (op : Op) (own : Unit) : asked answers (call op) own = [op] :=
  rfl

theorem mem_created {o : CreateOpts} {source log : Bool} {op : Op}
    (member : op ∈ asked answers (rufuxCreate o source log) ()) :
    ∃ event ∈ (created (fun op (_ : Unit) => (answers op, ())) o source log ()).events,
      event.1 = op :=
  List.mem_map.mp member

end Answers

section DryRun

@[reducible]
def asking : Kind → Bool
  | .asks => true
  | _ => false

section Flows

variable {o : CreateOpts} (dry : o.dryRun = true)

include dry

theorem asking_prepare : (prepare o).Uses (Among asking) := by
  unfold prepare
  simp only [dry, Bool.not_true, Bool.false_and, Bool.and_false, onlyIf_false]
  infer_instance

theorem asking_flowDd : (flowDd o).Uses (Among asking) := by
  unfold flowDd rufuxVdiskWrite rufuxWriteImage CreateOpts.writeOpts
  simp only [dry, Bool.not_true, onlyIf_false, if_true]
  infer_instance

theorem asking_flowExtractDir : (flowExtractDir o).Uses (Among asking) := by
  unfold flowExtractDir vfatSizeGuard
  simp only [dry, if_true]
  infer_instance

theorem asking_flowFormat : (flowFormat o).Uses (Among asking) := by
  unfold flowFormat
  simp only [dry, Bool.not_true, onlyIf_false]
  infer_instance

theorem asking_flowDos : (flowDos o).Uses (Among asking) := by
  unfold flowDos
  simp only [dry, Bool.not_true, onlyIf_false]
  infer_instance

/-- The plan of an extraction without a log is carried out, unless its scheme is unknown. -/
theorem asking_flowExtractDisk {log : Bool}
    (harmless : log = true ∨ ¬(o.scheme = "gpt" ∨ o.scheme = "dos" ∨ o.scheme = "mbr")) :
    (flowExtractDisk o log).Uses (Among asking) := by
  unfold flowExtractDisk vfatSizeGuard
  rcases harmless with logged | unknown
  · simp only [dry, logged, Bool.and_true, Bool.not_true, onlyIf_false]
    infer_instance
  · have stops : makeVolume o = leave := by
      have none : (decide (o.scheme = "gpt") || decide (o.scheme = "dos") ||
          decide (o.scheme = "mbr")) = false := by
        simpa [and_assoc] using unknown
      unfold makeVolume partitionSingle rufuxPartition singlePartition
      simp only [none]
      rfl
    simp only [stops, leave_bind]
    infer_instance

theorem asking_flowWindows {log : Bool}
    (harmless : log = true ∨ ¬(isFat32 o = true ∨ o.fs = "ntfs")) :
    (flowWindows o log).Uses (Among asking) := by
  unfold flowWindows
  rcases harmless with logged | unknown
  · simp only [dry, logged, Bool.and_true, Bool.not_true, onlyIf_false]
    infer_instance
  · have none : (isFat32 o || decide (o.fs = "ntfs")) = false := by
      simpa [not_or] using unknown
    rw [none]
    exact uses_leave

end Flows

/-- The flows that carry a plan out when there is no log to print it to. -/
def CarriedOut (o : CreateOpts) (source : Bool) : Prop :=
  (o.mode = "extract" ∧ (o.scheme = "gpt" ∨ o.scheme = "dos" ∨ o.scheme = "mbr")) ∨
    (o.mode = "windows" ∧ source = true ∧ (o.fs = "vfat" ∨ o.fs = "fat32" ∨ o.fs = "ntfs"))

theorem asking_flow {o : CreateOpts} (dry : o.dryRun = true) (source log : Bool)
    (harmless : log = true ∨ ¬CarriedOut o source) : (flow o source log).Uses (Among asking) := by
  have dd := asking_flowDd dry
  have directory := asking_flowExtractDir dry
  have format := asking_flowFormat dry
  have dos := asking_flowDos dry
  unfold flow
  by_cases extracts : o.mode = "extract"
  · have disk : (flowExtractDisk o log).Uses (Among asking) := by
      refine asking_flowExtractDisk dry (harmless.imp_right fun idle legal => idle ?_)
      exact .inl ⟨extracts, legal⟩
    simp only [extracts, String.reduceEq, if_true, if_false]
    infer_instance
  · by_cases windows : o.mode = "windows"
    · simp only [windows, String.reduceEq, if_true, if_false]
      cases source with
      | false => exact uses_leave
      | true =>
          have disk : (flowWindows o log).Uses (Among asking) := by
            refine asking_flowWindows dry (harmless.imp_right fun idle legal => idle ?_)
            refine .inr ⟨windows, rfl, ?_⟩
            simpa [isFat32, or_assoc] using legal
          infer_instance
    · simp only [extracts, windows, if_false]
      infer_instance

theorem asked_partition {o : PartOpts} (scheme : o.scheme = "gpt" ∨ o.scheme = "dos")
    (layout : o.layout = "single" ∨ o.layout = "main+uefintfs") (real : o.dryRun = false)
    (yes : o.yes = true) : .scriptFile ∈ asked agreeable (rufuxPartition .disk o) () := by
  rcases scheme with scheme | scheme <;> rcases layout with layout | layout <;>
    cases needed : needsSize o <;>
    simp [rufuxPartition, scheme, layout, real, yes, needed, agreeable]

theorem answer_prepare_dry {o : CreateOpts} (dry : o.dryRun = true) :
    answer agreeable (prepare o) () = (some (), ()) := by
  simp [prepare, dry, agreeable]

theorem answer_vfatSizeGuard (fs : String) :
    answer agreeable (vfatSizeGuard fs) () = (some (), ()) := by
  cases fat : fsIsFat fs <;> simp [vfatSizeGuard, fat, agreeable]

theorem asked_flowExtractDisk {o : CreateOpts} (scheme : o.scheme = "gpt" ∨ o.scheme = "dos") :
    .scriptFile ∈ asked agreeable (flowExtractDisk o false) () := by
  refine mem_asked_rest agreeable (answer_vfatSizeGuard o.fs) ?_
  simp only [Bool.and_false, Bool.not_false, onlyIf_true]
  refine mem_asked_bind agreeable (mem_asked_bind agreeable (mem_asked_bind agreeable ?_))
  exact asked_partition scheme (.inl rfl) rfl rfl

theorem asked_makeWindowsVolume (o : CreateOpts) :
    .scriptFile ∈ asked agreeable (makeWindowsVolume o) () := by
  have planned : .scriptFile ∈ asked agreeable (rufuxPartition .disk (windowsPartition o)) () := by
    refine asked_partition ?_ ?_ rfl rfl
    · cases gpt : isGpt o <;> simp [windowsPartition, gpt]
    · cases fat : isFat32 o <;> simp [windowsPartition, fat]
  cases fat : isFat32 o <;> simp [makeWindowsVolume, fat, agreeable, planned]

theorem asked_flow {o : CreateOpts} {source : Bool} (carried : CarriedOut o source)
    (settled : o.scheme ≠ "mbr") : .scriptFile ∈ asked agreeable (flow o source false) () := by
  rcases carried with ⟨mode, scheme⟩ | ⟨mode, rfl, fs⟩
  · have legal : o.scheme = "gpt" ∨ o.scheme = "dos" := by
      simpa [settled] using scheme
    have extracts : flow o source false = (do
        let directory ← call .isDir
        if directory then flowExtractDir o else flowExtractDisk o false) := by
      simp only [flow, mode, String.reduceEq, if_true, if_false]
    rw [extracts]
    exact mem_asked_rest agreeable rfl (asked_flowExtractDisk legal)
  · have legal : (isFat32 o || decide (o.fs = "ntfs")) = true := by
      simpa [isFat32, or_assoc] using fs
    have writes : flow o true false = flowWindows o false := by
      simp only [flow, mode, String.reduceEq, if_true, if_false]
      rfl
    rw [writes]
    unfold flowWindows
    simp only [legal, Bool.and_false, Bool.not_false, onlyIf_true]
    exact mem_asked_rest agreeable rfl (mem_asked_bind agreeable (asked_makeWindowsVolume o))

theorem carriedOut_normalised {o : CreateOpts} {source : Bool} :
    CarriedOut o.normalised source ↔ CarriedOut o source := by
  by_cases short : o.scheme = "mbr"
  · simp [CarriedOut, CreateOpts.normalised, short]
  · simp [CarriedOut, CreateOpts.normalised, short]

theorem normalised_scheme (o : CreateOpts) : o.normalised.scheme ≠ "mbr" := by
  by_cases short : o.scheme = "mbr"
  · simp [CreateOpts.normalised, short]
  · simp [CreateOpts.normalised, short]

/-- A dry run calls nothing but questions, with a log or where no plan would be carried out. -/
theorem dry_run_asks_iff {o : CreateOpts} (dry : o.dryRun = true) (source log : Bool) :
    (∀ {σ : Type} (backend : (op : Op) → σ → Answer op × σ) (state : σ),
      ∀ event ∈ (created backend o source log state).events, event.1.kind = .asks) ↔
      log = true ∨ ¬CarriedOut o source := by
  constructor
  · intro asks
    by_contra carried
    simp only [not_or, Bool.not_eq_true, not_not] at carried
    obtain ⟨rfl, carried⟩ := carried
    have asked : .scriptFile ∈ asked agreeable (rufuxCreate o source false) () :=
      mem_asked_rest agreeable (answer_prepare_dry (o := o.normalised) dry)
        (asked_flow (carriedOut_normalised.mpr carried) (normalised_scheme o))
    obtain ⟨event, member, same⟩ := mem_created agreeable asked
    have kind := asks _ () event member
    rw [same] at kind
    exact absurd kind (by decide)
  · intro harmless σ backend state event member
    have dry : o.normalised.dryRun = true := dry
    have uses : (rufuxCreate o source log).Uses (Among asking) := by
      have start := asking_prepare dry
      have rest := asking_flow dry source log
        (harmless.imp_right fun idle carried => idle (carriedOut_normalised.mp carried))
      unfold rufuxCreate
      infer_instance
    have among := uses.execute backend () state event member
    revert among
    unfold Among
    cases event.1.kind <;> decide

theorem dry_run_asks_iff_raw_image :
    (∀ {σ : Type} (backend : (op : Op) → σ → Answer op × σ) (state : σ),
      ∀ event ∈ (created backend { rawImage with dryRun := true } true true state).events,
        event.1.kind = .asks) ↔
      true = true ∨ ¬CarriedOut { rawImage with dryRun := true } true :=
  dry_run_asks_iff rfl true true

end DryRun

section FixedDisks

/-- The guard refuses every node of the target unless fixed disks are allowed. -/
def Refuses {σ : Type} (backend : (op : Op) → σ → Answer op × σ) : Prop :=
  ∀ node file state, (backend (.checkTarget node false file) state).1 = false

/-- The target guard refuses the disks that are not removable. -/
theorem rufuxCheckTarget_fixed {system : Rufux.Linux.System} {path : Rufux.Linux.CString}
    {number : Rufux.Linux.DevNumber} {disk : Rufux.Linux.KernelDisk} {file : Bool}
    (block : system.stat path = some (.block number))
    (named : Rufux.Linux.namedDisk system path = some disk) (fixed : disk.isRemovable = false) :
    Rufux.Linux.rufuxCheckTarget system path false file ≠ .ok () := by
  simp only [Rufux.Linux.rufuxCheckTarget, block, named]
  split
  next => simp
  next => simp [fixed]

/-- A guard that answers as the target guard does of a fixed disk refuses. -/
theorem refuses_of_fixed {system : Rufux.Linux.System} {path : Node → Rufux.Linux.CString}
    {σ : Type} {backend : (op : Op) → σ → Answer op × σ}
    (guards : ∀ node fixed file state, (backend (.checkTarget node fixed file) state).1 = true →
      Rufux.Linux.rufuxCheckTarget system (path node) fixed file = .ok ())
    (fixed : ∀ node, ∃ number disk, system.stat (path node) = some (.block number) ∧
      Rufux.Linux.namedDisk system (path node) = some disk ∧ disk.isRemovable = false) :
    Refuses backend := by
  intro node file state
  obtain ⟨number, disk, block, named, kept⟩ := fixed node
  refine Bool.eq_false_iff.mpr fun let_through => ?_
  exact rufuxCheckTarget_fixed block named kept (guards node false file state let_through)

/-- The calls that change the target or the volume on it. -/
def Op.touches (op : Op) : Prop :=
  op.kind = .scans ∨ op.kind = .clears ∨ op.kind = .writes ∨ op.kind = .fills ∨ op.kind = .boots

@[reducible]
def quiet : Kind → Bool
  | .scans | .clears => false
  | _ => true

instance quiet_of_raw {α : Type} {block : Proc α} [raw : block.Uses (Among raw)] :
    block.Uses (Among quiet) :=
  raw.mono fun op => among_mono (by rintro ⟨⟩ <;> decide) op

instance quiet_of_inside {block : Proc Unit} [inside : block.Uses (Among inside)] :
    block.Uses (Among quiet) :=
  inside.mono fun op => among_mono (by rintro ⟨⟩ <;> decide) op

instance quiet_fillMounted (fill : Proc Unit) [inside : fill.Uses (Among inside)] :
    (fillMounted fill).Uses (Among quiet) := by
  unfold fillMounted
  infer_instance

instance quiet_mountTwice : mountTwice.Uses (Among quiet) := by
  unfold mountTwice mountFirst
  infer_instance

instance quiet_flow (o : CreateOpts) (source log : Bool) :
    (flow o source log).Uses (Among quiet) := by
  unfold flow flowExtractDisk vfatSizeGuard mountFirst flowDos flowWindows mountFirst
  infer_instance

theorem quiet_prepare {o : CreateOpts} (passes : o.badblockPasses = 0)
    (quick : o.mode = "dd" → o.quickFormat = true) : (prepare o).Uses (Among quiet) := by
  unfold prepare runBadblocks unmountDisk
  by_cases raw : o.mode = "dd"
  · simp only [passes, badblocksFrom, quick raw, Bool.not_true, Bool.and_false, onlyIf_false]
    infer_instance
  · simp only [passes, badblocksFrom, raw, decide_false, Bool.and_false, onlyIf_false]
    infer_instance

/-- Answers of a machine whose target is a fixed disk in good order. -/
def fixedDisk : (op : Op) → Answer op
  | .checkTarget _ fixed _ => fixed
  | .ownMount _ | .smartFailed => false
  | _ => true

theorem asked_prepare {o : CreateOpts} (real : o.dryRun = false) (yes : o.yes = true)
    (scans : o.badblockPasses ≠ 0 ∨ (o.mode = "dd" ∧ o.quickFormat = false)) :
    ∃ op ∈ asked fixedDisk (prepare o) (), op.touches := by
  have unmounted : answer fixedDisk unmountDisk () = (some (), ()) := rfl
  cases passes : o.badblockPasses with
  | zero =>
      obtain ⟨mode, full⟩ := scans.resolve_left (absurd passes)
      refine ⟨.zeroHead .disk, ?_, .inr (.inl rfl)⟩
      simp [prepare, runBadblocks, badblocksFrom, real, yes, passes, mode, full, unmounted,
        fixedDisk]
  | succ more =>
      refine ⟨.pattern 0, ?_, .inl rfl⟩
      have scanned : .pattern 0 ∈ asked fixedDisk (runBadblocks (more + 1) o.allowFile) () := by
        simp [runBadblocks, badblocksFrom, rufuxBadblocksWrite, fixedDisk]
      simp [prepare, real, yes, passes, unmounted, scanned, fixedDisk]

/-- With fixed disks not allowed, a real run leaves a fixed disk alone unless bad-block passes are
asked for, or a raw image with the head cleared before it. -/
theorem fixed_disk_untouched_iff {o : CreateOpts} (real : o.dryRun = false) (yes : o.yes = true)
    (refused : o.allowFixed = false) (source log : Bool) :
    (∀ {σ : Type} (backend : (op : Op) → σ → Answer op × σ) (state : σ), Refuses backend →
      ∀ event ∈ (created backend o source log state).events, ¬event.1.touches) ↔
      o.badblockPasses = 0 ∧ (o.mode = "dd" → o.quickFormat = true) := by
  constructor
  · intro untouched
    by_contra scans
    have scans : o.badblockPasses ≠ 0 ∨ (o.mode = "dd" ∧ o.quickFormat = false) := by
      by_cases passes : o.badblockPasses = 0
      · simpa [passes] using scans
      · exact .inl passes
    obtain ⟨op, member, touches⟩ := asked_prepare (o := o.normalised) real yes scans
    have asked : op ∈ asked fixedDisk (rufuxCreate o source log) () :=
      mem_asked_bind fixedDisk member
    obtain ⟨event, called, rfl⟩ := mem_created fixedDisk asked
    exact untouched _ () (fun _ _ _ => rfl) event called touches
  · rintro ⟨passes, quick⟩ σ backend state refuses event member touches
    have uses : (rufuxCreate o source log).Uses (Among quiet) := by
      have start := quiet_prepare (o := o.normalised) passes quick
      unfold rufuxCreate
      infer_instance
    have among := uses.execute backend () state event member
    have writes : beforeGuard event.1.kind = false := by
      rcases touches with kind | kind | kind | kind | kind <;> rw [kind]
      · simp [Among, kind] at among
      · simp [Among, kind] at among
    obtain ⟨before, after, split⟩ := List.append_of_mem member
    obtain ⟨earlier, guard, opened⟩ :=
      (guarded_rufuxCreate o source log).execute backend () state split writes
    obtain ⟨node, file, rfl⟩ := passed_iff.mp opened
    rw [refused] at guard
    have called : (⟨.checkTarget node false file, true⟩ : CallEvent Op Answer) ∈
        (created backend o source log state).events := by
      rw [split]
      exact List.mem_append_left _ guard
    obtain ⟨earlier, answered⟩ := answered_of_mem backend _ () state _ called
    rw [refuses] at answered
    exact Bool.noConfusion answered

theorem fixed_disk_untouched_iff_raw_image :
    (∀ {σ : Type} (backend : (op : Op) → σ → Answer op × σ) (state : σ), Refuses backend →
      ∀ event ∈ (created backend rawImage true true state).events, ¬event.1.touches) ↔
      rawImage.badblockPasses = 0 ∧ (rawImage.mode = "dd" → rawImage.quickFormat = true) :=
  fixed_disk_untouched_iff rfl rfl rfl true true

end FixedDisks

end Rufux.Create.Effects.Linux
