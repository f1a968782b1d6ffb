import Rufux.Cli.Consent

/-!
The target guard over whole command lines: no command writes to a target that the guard has not let
through, and fixed disks get through only on the word of the options.
-/

namespace Rufux.Cli

open Library Block Linux Create.Effects Create.Effects.Linux

section Words

def fixedFlag : Arg := ascii "--allow-fixed"

theorem allowed_write : Sets writeParser fixedFlag WriteOpts.allowFixed where
  known := by simp [writeParser, fixedFlag]
  flags := by
    intro entry member o
    simp only [writeParser, List.mem_cons, List.not_mem_nil, or_false] at member
    rcases member with rfl | rfl | rfl | rfl | rfl | rfl <;> simp [fixedFlag, ascii]
  values := by simp [writeParser]

theorem allowed_partition : Sets partitionParser fixedFlag PartOpts.allowFixed where
  known := by simp [partitionParser, fixedFlag]
  flags := by
    intro entry member o
    simp only [partitionParser, List.mem_cons, List.not_mem_nil, or_false] at member
    rcases member with rfl | rfl | rfl | rfl | rfl | rfl <;> simp [fixedFlag, ascii]
  values := by simp [partitionParser]

theorem allowed_format : Sets formatParser fixedFlag MkfsOpts.allowFixed where
  known := by simp [formatParser, fixedFlag]
  flags := by
    intro entry member o
    simp only [formatParser, List.mem_cons, List.not_mem_nil, or_false] at member
    rcases member with rfl | rfl | rfl | rfl | rfl <;> simp [fixedFlag, ascii]
  values := by simp [formatParser]

theorem allowed_installBoot : Sets installBootParser fixedFlag BootOpts.allowFixed where
  known := by simp [installBootParser, fixedFlag]
  flags := by
    intro entry member o
    simp only [installBootParser, List.mem_cons, List.not_mem_nil, or_false] at member
    rcases member with rfl | rfl | rfl | rfl | rfl <;> simp [fixedFlag, ascii]
  values := by simp [installBootParser]

theorem allowed_create : Sets createParser fixedFlag (·.opts.allowFixed) where
  known := by simp [createParser, fixedFlag]
  flags := by
    intro entry member o
    simp only [createParser, List.mem_cons, List.not_mem_nil, or_false] at member
    rcases member with rfl | rfl | rfl | rfl | rfl | rfl | rfl | rfl | rfl | rfl | rfl <;>
      simp [fixedFlag, ascii]
  values := by simp [createParser]

/-- The command line allows fixed disks. -/
def AllowsFixed (cmd : Arg) (args : List Arg) : Prop :=
  (cmd = ascii "write" ∧ .flag fixedFlag ∈ writeParser.items (args.drop 2)) ∨
    (cmd = ascii "create" ∧ .flag fixedFlag ∈ createParser.items (args.drop 2)) ∨
    (cmd = ascii "partition" ∧ .flag fixedFlag ∈ partitionParser.items (args.drop 1)) ∨
    (cmd = ascii "format" ∧ .flag fixedFlag ∈ formatParser.items (args.drop 1)) ∨
    (cmd = ascii "install-boot" ∧ .flag fixedFlag ∈ installBootParser.items (args.drop 1))

end Words

section Calls

-- each step of a block doubles the size that is counted for its instance
set_option synthInstance.maxSize 1000000000

theorem guarded_write (o : WriteOpts) :
    (write o).Guarded (passed o.allowFixed) (Among beforeGuard) := by
  refine Guarded.bind (Uses.guarded inferInstance) fun _ => ?_
  refine Guarded.bind (Uses.guarded inferInstance) fun _ => ?_
  refine Guarded.bind (Uses.guarded inferInstance) fun _ => ?_
  refine Guarded.bind (Uses.guarded inferInstance) fun _ => ?_
  refine Guarded.ite (fun _ => guarded_vdiskWrite o) fun _ => ?_
  refine Guarded.bind (Uses.guarded inferInstance) fun _ => ?_
  exact Guarded.bind (Uses.guarded inferInstance) fun _ => guarded_writeImage o

theorem guarded_partition (o : PartOpts) :
    (partition o).Guarded (passed o.allowFixed) (Among beforeGuard) :=
  Guarded.bind (Uses.guarded inferInstance) fun _ => (opens_partition .disk o).guarded

theorem guarded_format (o : MkfsOpts) :
    (format o).Guarded (passed o.allowFixed) (Among beforeGuard) :=
  Guarded.bind (Uses.guarded inferInstance) fun _ => (opens_format .disk o).guarded

theorem guarded_installBoot (o : BootOpts) :
    (installBoot o).Guarded (passed o.allowFixed) (Among beforeGuard) := by
  refine Guarded.bind (Uses.guarded inferInstance) fun _ => ?_
  refine Guarded.bind (Uses.guarded inferInstance) fun _ => ?_
  exact (opens_check .disk o.allowFile _).guarded

theorem guarded_create (src : Arg) (a : CreateArgs) :
    (create src a).Guarded (passed a.opts.allowFixed) (Among beforeGuard) := by
  have same : (createOpts a).allowFixed = a.opts.allowFixed := by
    unfold createOpts
    split <;> rfl
  refine Guarded.bind (Uses.guarded inferInstance) fun _ => ?_
  rw [← same]
  exact guarded_rufuxCreate (createOpts a) _ true

instance ahead_patterns (pass left : Nat) :
    (patternsFrom pass left).Uses (Among beforeGuard) := by
  induction left generalizing pass with
  | zero =>
      unfold patternsFrom
      infer_instance
  | succ left ih =>
      unfold patternsFrom
      infer_instance

instance ahead_badblocks (o : BadblocksOpts) : (badblocks o).Uses (Among beforeGuard) := by
  unfold badblocks
  infer_instance

instance ahead_extract (dry : Bool) : (extract dry).Uses (Among beforeGuard) := by
  unfold extract
  infer_instance

instance ahead_persist (o : PersistOpts) : (persist o).Uses (Among beforeGuard) := by
  unfold persist
  infer_instance

instance ahead_mount (dry : Bool) : (mount dry).Uses (Among beforeGuard) := by
  unfold mount
  infer_instance

instance ahead_umount (dry : Bool) : (umount dry).Uses (Among beforeGuard) := by
  unfold umount
  infer_instance

end Calls

section Commands

variable {cmd first : Arg} {rest args : List Arg}

/-- The block writes to the target only behind the guard, which has let fixed disks through only on
the word of the options. -/
def Kept (cmd : Arg) (args : List Arg) (block : Proc Unit) : Prop :=
  ∃ fixed, block.Guarded (passed fixed) (Among beforeGuard) ∧
    (fixed = true → AllowsFixed cmd args)

theorem kept_of_uses {block : Proc Unit} (uses : block.Uses (Among beforeGuard)) :
    Kept cmd args block :=
  ⟨false, uses.guarded, fun allowed => Bool.noConfusion allowed⟩

theorem kept_of_sets {O : Type} {p : Parser O} {allowFixed : O → Bool}
    (sets : Sets p fixedFlag allowFixed) {options : List Arg} {o : O} {block : Proc Unit}
    (guarded : block.Guarded (passed (allowFixed (p.read options o))) (Among beforeGuard))
    (start : allowFixed o = false)
    (said : .flag fixedFlag ∈ p.items options → AllowsFixed cmd args) : Kept cmd args block := by
  refine ⟨_, guarded, fun allowed => said ?_⟩
  rcases (sets.read options o).mp allowed with item | before
  · exact item
  · rw [start] at before
    exact Bool.noConfusion before

theorem kept_single : Kept cmd (first :: rest) (command.single cmd rest) := by
  unfold command.single
  split
  next named =>
    refine kept_of_sets allowed_partition (guarded_partition _) rfl fun item => ?_
    exact .inr (.inr (.inl ⟨named, item⟩))
  split
  next named =>
    refine kept_of_sets allowed_format (guarded_format _) rfl fun item => ?_
    exact .inr (.inr (.inr (.inl ⟨named, item⟩)))
  split
  next named =>
    refine kept_of_sets allowed_installBoot (guarded_installBoot _) rfl fun item => ?_
    exact .inr (.inr (.inr (.inr ⟨named, item⟩)))
  split
  next => exact kept_of_uses inferInstance
  split
  next => exact kept_of_uses inferInstance
  split
  next => exact kept_of_uses inferInstance
  split
  next => exact kept_of_uses inferInstance
  next => exact kept_of_uses inferInstance

theorem kept_command : Kept cmd args (command cmd args) := by
  unfold command
  split
  next first second rest =>
    split
    next named =>
      refine kept_of_sets allowed_write (guarded_write _) rfl fun item => ?_
      exact .inl ⟨named, item⟩
    split
    next => exact kept_of_uses inferInstance
    split
    next named =>
      refine kept_of_sets allowed_create (guarded_create first _) rfl fun item => ?_
      exact .inr (.inl ⟨named, item⟩)
    next => exact kept_single
  next => exact kept_single
  next => exact kept_of_uses inferInstance

end Commands

/-- Whatever the command line and whatever the system answers, each write to the target, save for
the bad-block passes and the clearing of the head before a raw image, comes after the target guard
has let a node of it through, with fixed disks allowed only where the options say so. -/
theorem guard_in_every_command {σ : Type} (backend : (op : Op) → σ → Answer op × σ)
    (argv : List Arg) (state : σ) (before after : List (CallEvent Op Answer))
    (event : CallEvent Op Answer)
    (split : ((main argv).execute backend () state).events = before ++ event :: after)
    (writes : beforeGuard event.1.kind = false) :
    ∃ cmd args node fixed file, argv = cmd :: args ∧
      (⟨.checkTarget node fixed file, true⟩ : CallEvent Op Answer) ∈ before ∧
        (fixed = true → AllowsFixed cmd args) := by
  cases argv with
  | nil =>
      have none : ((main []).execute backend () state).events = [] := rfl
      rw [none] at split
      exact absurd split.symm (by simp)
  | cons cmd args =>
      obtain ⟨fixed, guarded, said⟩ := @kept_command cmd args
      have whole : (main (cmd :: args)).Guarded (passed fixed) (Among beforeGuard) := by
        unfold main
        refine Guarded.ite (fun _ => Uses.guarded inferInstance) fun _ => ?_
        exact Guarded.bind (Uses.guarded inferInstance) fun _ => guarded
      obtain ⟨earlier, member, pass⟩ := whole.execute backend () state split writes
      obtain ⟨node, file, rfl⟩ := passed_iff.mp pass
      exact ⟨cmd, args, node, fixed, file, rfl, member, said⟩

theorem guard_in_every_command_write :
    ∃ cmd args node fixed file, writeArgs = cmd :: args ∧
      (⟨.checkTarget node fixed file, true⟩ : CallEvent Op Answer) ∈
        ((main writeArgs).execute (fun op (_ : Unit) => (agreeable op, ())) () ()).events.take 8 ∧
        (fixed = true → AllowsFixed cmd args) := by
  refine guard_in_every_command (fun op (_ : Unit) => (agreeable op, ())) writeArgs () _
    (((main writeArgs).execute (fun op (_ : Unit) => (agreeable op, ())) () ()).events.drop 9)
    ⟨.openTarget, true⟩ ?_ rfl
  rw [main_writeArgs]
  rfl

end Rufux.Cli
