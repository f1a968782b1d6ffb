import Rufux.Create.Effects.Macos

/-!
What a run of `rufux_create` on macOS can do to the target, whatever the system answers: nothing
in a dry run, and nothing before the boot disk has been ruled out and the target guard passed.
-/

namespace Rufux.Create.Effects.Macos

open Library Block

-- each step of a block doubles the size that is counted for its instance
set_option synthInstance.maxSize 1000000000000000000

/-- What a call does. What it needs to be held is in its kind. -/
inductive Kind where
  | asks
  | unmounts
  | scans
  | clears
  | copies
  | takes
  | writes
  | populates
  | fromIso
  | fromImage
  | fills
  | fillsFromIso
  | fillsFromImage
  | stages
  | stagesFromIso
  | stagesFromImage
  | stagesImage
  deriving DecidableEq

@[reducible]
def Op.kind : Op → Kind
  | .unmountDisk _ | .unmountIfMounted _ | .openDisk _ => .unmounts
  | .pattern _ => .scans
  | .zeroHead .target => .clears
  | .zeroHead _ | .wipeTables _ | .writeTables _ | .mkfs .. | .writeMbr _ | .runSyslinux _
  | .wipeEdges _ | .writeUefiNtfs _ | .biosInstall _ | .ntfsfix _ | .dosPbr _ | .dosMbr _
  | .openTarget | .writeImage | .truncate | .convert => .writes
  | .populateNtfs _ | .mkfsFromDir .. => .populates
  | .writeFromIso _ => .fromIso
  | .writeFromImage _ => .fromImage
  | .extractDir | .autorunDir | .persistDir => .copies
  | .extractTree true | .extractTreeWithoutImage true | .autorunTree true | .persistTree true
  | .customizeTree true | .copyDos | .noIndex => .fills
  | .extractTree false | .extractTreeWithoutImage false | .autorunTree false | .persistTree false
  | .customizeTree false => .stages
  | .splitFromIso true => .fillsFromIso
  | .splitFromImage true => .fillsFromImage
  | .splitFromIso false => .stagesFromIso
  | .splitFromImage false => .stagesFromImage
  | .extractImage => .stagesImage
  | .attachFormat | .detachFormat | .attachImage | .detachImage | .makeMountDir | .removeMountDir
  | .mountPrivate | .rufuxMount | .unmountPrivate _ | .rufuxUnmount | .scratchTree
  | .scratchTreeNamed | .removeTree | .scratchImage | .scratchImageNamed | .removeImage | .mountIso
  | .unmountIso => .takes
  | _ => .asks

@[reducible]
def Among (kinds : Kind → Bool) (op : Op) : Bool := kinds op.kind

theorem among_mono {kinds wider : Kind → Bool} (included : ∀ kind, kinds kind → wider kind)
    (op : Op) (among : Among kinds op = true) : Among wider op = true :=
  included op.kind among

variable {L : Type}

instance uses_call {allowed : Op → Bool} {op : Op} [Holds (allowed op)] :
    (call op : Proc L Bool).Uses allowed :=
  inferInstanceAs ((ask op : Proc L Bool).Uses allowed)

section Start

/-- The calls before any flow. -/
@[reducible]
def early : Kind → Bool
  | .asks | .unmounts | .scans | .clears => true
  | _ => false

instance early_badblocks (allowFile : Bool) (pass left : Nat) :
    (badblocksFrom allowFile pass left : Proc L Unit).Uses (Among early) := by
  induction left generalizing pass with
  | zero =>
      unfold badblocksFrom
      infer_instance
  | succ left ih =>
      unfold badblocksFrom rufuxBadblocksWrite
      infer_instance

instance early_prepare (o : CreateOpts) : (prepare o : Proc L Unit).Uses (Among early) := by
  unfold prepare runBadblocks
  infer_instance

end Start

section Guard

/-- The target guard has let a node through, with fixed disks allowed or not. -/
def passed (fixed : Bool) : CallEvent Op Answer → Bool
  | ⟨.checkTarget _ allowFixed _, ok⟩ => allowFixed == fixed && ok
  | _ => false

/-- The target is known not to be the disk that the system runs from. -/
def notBoot : CallEvent Op Answer → Bool
  | ⟨.isBootDisk .target, boot⟩ => !boot
  | _ => false

def toDirectory : CallEvent Op Answer → Bool
  | ⟨.isDir, directory⟩ => directory
  | _ => false

/-- What leaves the target and the volume on it as they are, and the calls before any flow. -/
@[reducible]
def beforeGuard : Kind → Bool
  | .writes | .populates | .fromIso | .fromImage | .fills | .fillsFromIso | .fillsFromImage => false
  | _ => true

@[reducible]
def asking : Kind → Bool
  | .asks => true
  | _ => false

theorem opens_check {fixed : Bool} {α : Type} (node : Node) (file : Bool)
    (rest : Unit → Proc L α) :
    (call (.checkTarget node fixed file) >>= fun ok => must ok >>= rest).Opens (passed fixed)
      (Among beforeGuard) :=
  opens_ask rfl id (fun ok accepted => by simpa [passed] using accepted) rest

theorem opens_boot {α : Type} (rest : Unit → Proc L α) :
    (call (.isBootDisk .target) >>= fun boot => must (!boot) >>= rest).Opens notBoot
      (Among asking) :=
  opens_ask rfl (fun boot => !boot) (fun _ accepted => accepted) rest

theorem guarded_boot (o : CreateOpts) (source : Bool) :
    (rufuxCreate o source : Proc L Unit).Guarded notBoot (Among asking) :=
  (opens_boot _).bind_left.guarded

section Steps

variable {fixed : Bool}

theorem opens_partition (node : Node) (o : PartOpts) :
    (rufuxPartition node o : Proc L Unit).Opens (passed o.allowFixed) (Among beforeGuard) := by
  refine Opens.bind_right (Uses.guarded inferInstance) fun _ => ?_
  refine Opens.bind_right (Uses.guarded inferInstance) fun _ => ?_
  refine Opens.bind_right (Uses.guarded inferInstance) fun _ => ?_
  exact opens_check node o.allowFile _

theorem opens_format (node : Node) (o : MkfsOpts) :
    (rufuxFormat node o : Proc L Unit).Opens (passed o.allowFixed) (Among beforeGuard) := by
  refine Opens.bind_right (Uses.guarded inferInstance) fun _ => ?_
  refine Opens.bind_right (Uses.guarded inferInstance) fun _ => ?_
  refine Opens.bind_right (Uses.guarded inferInstance) fun _ => ?_
  refine Opens.bind_right (Uses.guarded inferInstance) fun _ => ?_
  refine Opens.bind_right (Uses.guarded inferInstance) fun _ => ?_
  refine Opens.bind_right (Uses.guarded inferInstance) fun _ => ?_
  exact opens_check node o.allowFile _

theorem opens_writeImage (o : WriteOpts) :
    (rufuxWriteImage o : Proc L Unit).Opens (passed o.allowFixed) (Among beforeGuard) := by
  refine Opens.bind_right (Uses.guarded inferInstance) fun _ => ?_
  refine Opens.bind_right (Uses.guarded inferInstance) fun _ => ?_
  exact opens_check .target o.allowFile _

theorem opens_vdiskWrite (o : WriteOpts) :
    (rufuxVdiskWrite o : Proc L Unit).Opens (passed o.allowFixed) (Among beforeGuard) :=
  opens_check .target o.allowFile _

theorem opens_planTarget (o : CreateOpts) :
    (planTarget o : Proc L Unit).Opens (passed o.allowFixed) (Among beforeGuard) := by
  have opens : (ask (.checkTarget .target o.allowFixed o.allowFile) >>= fun ok => must ok :
      Proc L Unit).Opens (passed o.allowFixed) (Among beforeGuard) := by
    refine opens_ask_last rfl _ ?_
    intro ok accepted
    simpa [passed] using accepted
  exact opens

theorem opens_partitionAndAttach (o : PartOpts) :
    (partitionAndAttach o).Opens (passed o.allowFixed) (Among beforeGuard) :=
  opens_check .target o.allowFile _

theorem guarded_unmountNativePrivate :
    unmountNativePrivate.Guarded (passed fixed) (Among beforeGuard) := by
  refine Guarded.bind guarded_locals fun taken => Guarded.bind guarded_update fun _ => ?_
  exact Guarded.ite (fun _ => Uses.guarded inferInstance) fun _ => Uses.guarded inferInstance

theorem guarded_cleanup : cleanup.Guarded (passed fixed) (Among beforeGuard) := by
  refine Guarded.bind guarded_locals fun taken => ?_
  refine Guarded.bind (Uses.guarded inferInstance) fun _ => ?_
  refine Guarded.bind ?_ fun _ => ?_
  · refine Guarded.onlyIf fun _ => ?_
    exact Guarded.bind guarded_unmountNativePrivate.attempt fun _ => Uses.guarded inferInstance
  refine Guarded.bind ?_ fun _ => ?_
  · exact Guarded.onlyIf fun _ => Guarded.bind (Uses.guarded inferInstance) fun _ => guarded_update
  refine Guarded.bind ?_ fun _ => Guarded.onlyIf fun _ => ?_
  · exact Guarded.onlyIf fun _ => Guarded.bind (Uses.guarded inferInstance) fun _ => guarded_update
  refine Guarded.bind (Uses.guarded inferInstance) fun _ => ?_
  exact Guarded.bind (Uses.guarded inferInstance) fun _ => guarded_update

end Steps

variable (o : CreateOpts)

theorem opens_flowDd :
    (flowDd o : Proc L Unit).Opens (passed o.allowFixed) (Among beforeGuard) := by
  refine Opens.bind_right (Uses.guarded inferInstance) fun _ => ?_
  refine Opens.bind_right (Uses.guarded inferInstance) fun _ => ?_
  refine Opens.bind_right (Uses.guarded inferInstance) fun _ => ?_
  refine Opens.ite (fun _ => opens_vdiskWrite o.writeOpts) fun _ => ?_
  refine Opens.bind_right (Uses.guarded inferInstance) fun _ => ?_
  exact Opens.bind_right (Uses.guarded inferInstance) fun _ => opens_writeImage o.writeOpts

theorem guarded_flowExtractDir :
    (flowExtractDir o : Proc L Unit).Guarded (passed o.allowFixed) (Among beforeGuard) := by
  refine Uses.guarded ?_
  unfold flowExtractDir vfatSizeGuard
  infer_instance

theorem opens_flowExtractDisk :
    (flowExtractDisk o : Proc L Unit).Opens (passed o.allowFixed) (Among beforeGuard) := by
  unfold flowExtractDisk vfatSizeGuard
  refine Opens.bind_right (Uses.guarded inferInstance) fun _ => ?_
  refine Opens.ite (fun _ => opens_planTarget o) fun _ => ?_
  exact Opens.scope (opens_partitionAndAttach _).bind_left guarded_cleanup

theorem opens_flowFormat :
    (flowFormat o : Proc L Unit).Opens (passed o.allowFixed) (Among beforeGuard) := by
  refine Opens.bind_right (Uses.guarded inferInstance) fun _ => ?_
  refine Opens.ite (fun _ => opens_planTarget o) fun _ => ?_
  refine Opens.ite (fun _ => ?_) fun _ => ?_
  · exact (opens_partition .work { singlePartition o with allowFile := false }).bind_left
  · exact opens_format .target
      { fileSystem o o.fs o.allowFixed with allowFile := o.allowFile }

theorem opens_flowDos :
    (flowDos o : Proc L Unit).Opens (passed o.allowFixed) (Among beforeGuard) := by
  refine Opens.ite (fun _ => opens_planTarget o) fun _ => ?_
  refine Opens.bind_right (Uses.guarded inferInstance) fun _ => ?_
  refine Opens.bind_right (Uses.guarded inferInstance) fun _ => ?_
  exact Opens.scope (opens_partitionAndAttach _).bind_left guarded_cleanup

theorem opens_flowWindows :
    (flowWindows o : Proc L Unit).Opens (passed o.allowFixed) (Among beforeGuard) := by
  refine Opens.bind_right (Uses.guarded inferInstance) fun _ => ?_
  refine Opens.ite (fun _ => opens_planTarget o) fun _ => ?_
  refine Opens.bind_right (Uses.guarded inferInstance) fun _ => ?_
  refine Opens.bind_right (Uses.guarded inferInstance) fun _ => ?_
  exact Opens.scope (opens_partitionAndAttach _).bind_left guarded_cleanup

/-- The guard has let a node through, or what is extracted goes to a directory. -/
def reached (o : CreateOpts) (event : CallEvent Op Answer) : Bool :=
  passed o.allowFixed event || (o.mode = "extract" && toDirectory event)

theorem opens_flow (source : Bool) :
    (flow o source : Proc L Unit).Opens (reached o) (Among beforeGuard) := by
  have widen : ∀ event, passed o.allowFixed event = true → reached o event = true := by
    intro event holds
    simp [reached, holds]
  unfold flow
  refine Opens.ite (fun _ => (opens_flowDd o).widen widen) fun _ => ?_
  refine Opens.ite (fun extract => ?_) fun _ => ?_
  · refine opens_ask_or rfl fun directory => ?_
    cases directory with
    | true => exact .inl (by simp [reached, toDirectory, extract])
    | false => exact .inr ((opens_flowExtractDisk o).widen widen)
  refine Opens.ite (fun _ => (opens_flowFormat o).widen widen) fun _ => ?_
  refine Opens.ite (fun _ => (opens_flowDos o).widen widen) fun _ => ?_
  refine Opens.ite (fun _ => ?_) fun _ => opens_leave
  exact Opens.bind_right (Uses.guarded inferInstance) fun _ => (opens_flowWindows o).widen widen

theorem guarded_flow (source : Bool) :
    (flow o source : Proc L Unit).Guarded (passed o.allowFixed) (Among beforeGuard) := by
  unfold flow
  refine Guarded.ite (fun _ => (opens_flowDd o).guarded) fun _ => ?_
  refine Guarded.ite (fun _ => ?_) fun _ => ?_
  · refine Guarded.bind (Uses.guarded inferInstance) fun _ => ?_
    exact Guarded.ite (fun _ => guarded_flowExtractDir o)
      fun _ => (opens_flowExtractDisk o).guarded
  refine Guarded.ite (fun _ => (opens_flowFormat o).guarded) fun _ => ?_
  refine Guarded.ite (fun _ => (opens_flowDos o).guarded) fun _ => ?_
  refine Guarded.ite (fun _ => ?_) fun _ => Uses.guarded inferInstance
  exact Guarded.bind (Uses.guarded inferInstance) fun _ => (opens_flowWindows o).guarded

theorem harmless_prepare : (prepare o : Proc L Unit).Uses (Among beforeGuard) :=
  (early_prepare _).mono fun op => among_mono (by rintro ⟨⟩ <;> decide) op

theorem guarded_rufuxCreate (source : Bool) :
    (rufuxCreate o source : Proc L Unit).Guarded (passed o.allowFixed) (Among beforeGuard) :=
  Guarded.bind (harmless_prepare _).guarded fun _ => guarded_flow o.normalised source

theorem opens_rufuxCreate (source : Bool) :
    (rufuxCreate o source : Proc L Unit).Opens (reached o) (Among beforeGuard) :=
  Opens.bind_right (harmless_prepare _).guarded fun _ => opens_flow o.normalised source

theorem passed_iff {fixed : Bool} {event : CallEvent Op Answer} :
    passed fixed event = true ↔ ∃ node file, event = ⟨.checkTarget node fixed file, true⟩ := by
  constructor
  · intro holds
    obtain ⟨op, result⟩ := event
    cases op with
    | checkTarget node allowFixed file =>
        simp only [passed, Bool.and_eq_true, beq_iff_eq] at holds
        obtain ⟨rfl, rfl⟩ := holds
        exact ⟨node, file, rfl⟩
    | _ => exact absurd holds Bool.false_ne_true
  · rintro ⟨node, file, rfl⟩
    simp [passed]

theorem toDirectory_iff {event : CallEvent Op Answer} :
    toDirectory event = true ↔ event = ⟨.isDir, true⟩ := by
  constructor
  · intro holds
    obtain ⟨op, result⟩ := event
    cases op with
    | isDir =>
        obtain rfl : result = true := holds
        exact rfl
    | _ => exact absurd holds Bool.false_ne_true
  · rintro rfl
    exact rfl

theorem notBoot_iff {event : CallEvent Op Answer} :
    notBoot event = true ↔ event = ⟨.isBootDisk .target, false⟩ := by
  constructor
  · intro holds
    obtain ⟨op, result⟩ := event
    cases op with
    | isBootDisk node =>
        cases node with
        | target =>
            obtain rfl := Bool.eq_false_of_not_eq_true' holds
            exact rfl
        | _ => exact absurd holds Bool.false_ne_true
    | _ => exact absurd holds Bool.false_ne_true
  · rintro rfl
    exact rfl

variable {σ : Type} (backend : (op : Op) → σ → Answer op × σ)

/-- A run with these options, the source image given or not. -/
def created (o : CreateOpts) (source : Bool) (state : σ) :
    CallProg.Outcome Op Answer (Option Unit) σ :=
  (rufuxCreate o source : Proc Unit Unit).execute backend () state

/-- In a run of `rufux_create` the target has been told from the boot disk before every call that
does more than ask, and the guard has let a node through, with fixed disks as the options have
them, before every call that writes to the target or to the volume on it. -/
theorem checks_before_changes (source : Bool) (state : σ)
    (before after : List (CallEvent Op Answer)) (event : CallEvent Op Answer)
    (split : (created backend o source state).events = before ++ event :: after) :
    (event.1.kind ≠ .asks → ⟨.isBootDisk .target, false⟩ ∈ before) ∧
      (beforeGuard event.1.kind = false →
        ∃ node file, ⟨.checkTarget node o.allowFixed file, true⟩ ∈ before) := by
  constructor
  · intro changes
    have kept : Among asking event.1 = false := by
      unfold Among
      revert changes
      cases event.1.kind <;> decide
    obtain ⟨earlier, member, boot⟩ :=
      (guarded_boot o source).execute backend () state split kept
    rw [notBoot_iff.mp boot] at member
    exact member
  · intro writes
    obtain ⟨earlier, member, opened⟩ :=
      (guarded_rufuxCreate o source).execute backend () state split writes
    obtain ⟨node, file, rfl⟩ := passed_iff.mp opened
    exact ⟨node, file, member⟩

/-- Answers of a machine with a removable target in good order. -/
def agreeable : (op : Op) → Answer op
  | .isBootDisk _ | .smartFailed | .detectFailed | .isVdisk | .sameFile | .isRegular _ => false
  | _ => true

/-- A raw image written to a disk, and compared after that. -/
def rawImage : CreateOpts where
  mode := "dd"
  scheme := "gpt"
  fs := "vfat"
  label := none
  wue := none
  splitWimMb := 0
  persistMb := 0
  quickFormat := true
  extendedLabel := false
  badblockPasses := 0
  verify := true
  ignoreSmart := false
  dryRun := false
  allowFixed := false
  allowFile := false
  yes := true

theorem checks_before_changes_raw_image :
    (Kind.writes ≠ Kind.asks → ⟨.isBootDisk .target, false⟩ ∈
      (created (fun op (_ : Unit) => (agreeable op, ())) rawImage true ()).events.take 15) ∧
      (beforeGuard Kind.writes = false → ∃ node file, ⟨.checkTarget node false file, true⟩ ∈
        (created (fun op (_ : Unit) => (agreeable op, ())) rawImage true ()).events.take 15) :=
  checks_before_changes rawImage (fun op (_ : Unit) => (agreeable op, ())) true () _
    ((created (fun op (_ : Unit) => (agreeable op, ())) rawImage true ()).events.drop 16)
    ⟨.openTarget, true⟩ rfl

section DryRun

variable {o : CreateOpts}

theorem asking_prepare (dry : o.dryRun = true) : (prepare o : Proc L Unit).Uses (Among asking) := by
  unfold prepare runBadblocks
  simp only [dry, Bool.not_true, Bool.and_false, Bool.false_and, onlyIf_false]
  infer_instance

theorem asking_flow (dry : o.dryRun = true) (source : Bool) :
    (flow o source : Proc L Unit).Uses (Among asking) := by
  have plain : o.writeOpts.dryRun = true := dry
  unfold flow flowDd rufuxVdiskWrite rufuxWriteImage flowExtractDir flowExtractDisk flowFormat
    flowDos flowWindows vfatSizeGuard planTarget
  simp only [dry, plain, Bool.not_true, if_true, onlyIf_false]
  infer_instance

/-- A dry run only asks. A run that succeeds, dry or not, has had a node let through by the guard,
or has extracted to a directory. -/
theorem dry_run_asks (source : Bool) (state : σ) :
    (o.dryRun = true →
      ∀ event ∈ (created backend o source state).events, event.1.kind = .asks) ∧
      ((created backend o source state).value = some () →
        (∃ node file, ⟨.checkTarget node o.allowFixed file, true⟩ ∈
          (created backend o source state).events) ∨
        (o.mode = "extract" ∧ ⟨.isDir, true⟩ ∈ (created backend o source state).events)) := by
  constructor
  · intro dry event member
    have uses : (rufuxCreate o source : Proc Unit Unit).Uses (Among asking) := by
      have dry : o.normalised.dryRun = true := dry
      have start := asking_prepare (L := Unit) dry
      have rest := asking_flow (L := Unit) dry source
      unfold rufuxCreate
      infer_instance
    have among := uses.execute backend () state event member
    revert among
    unfold Among
    cases event.1.kind <;> decide
  · intro ended
    obtain ⟨event, member, opened⟩ := (opens_rufuxCreate o source).execute backend () state
      (Option.isSome_iff_exists.mpr ⟨(), ended⟩)
    rcases Bool.or_eq_true_iff.mp opened with guard | directory
    · obtain ⟨node, file, rfl⟩ := passed_iff.mp guard
      exact .inl ⟨node, file, member⟩
    · simp only [Bool.and_eq_true, decide_eq_true_eq, toDirectory_iff] at directory
      obtain ⟨extract, rfl⟩ := directory
      exact .inr ⟨extract, member⟩

end DryRun

end Guard

end Rufux.Create.Effects.Macos
