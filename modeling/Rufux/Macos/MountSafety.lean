import Rufux.Library.Run
import Rufux.Macos.Mount

/-!
The life cycle of mounts over sequences of commands, ejects, crashes and reboots: which
processes get signals, what a failed unmount leaves, and what a mount answers from. It all
rests on state files that say what was written to them.
-/

namespace Rufux.Macos

open Library

/-! ### Runs -/

inductive MountEvent where
  | mount (dev : CString) (dryRun : Bool) (script : MountScript)
  | unmount (dev : CString) (dryRun : Bool) (script : UnmountScript)
  /-- File systems and other processes come and go, and daemons crash. -/
  | outside (mounts : List Mount) (crashed : List Int) (strangers : List Stranger)
  | reboot (mounts : List Mount) (strangers : List Stranger)
  /-- The state directory is listed in another order, or files are lost. -/
  | tidied (order : List Nat)

def World.step (world : World) : MountEvent → World
  | .mount dev dryRun script => (rufuxMount script dev dryRun world).1
  | .unmount dev dryRun script => (rufuxUnmount script dev dryRun world).1
  | .outside mounts crashed strangers => world.ran ⟨true, [], mounts, crashed, strangers⟩
  | .reboot mounts strangers => { world with mounts, daemons := [], strangers }
  | .tidied order => { world with states := order.filterMap (world.states[·]?) }

/-- A machine on which nothing was mounted yet. -/
def World.boot (mounts : List Mount) (strangers : List Stranger) : World :=
  ⟨[], mounts, [], strangers, []⟩

/-! ### What is promised -/

/-- The daemon's mount point is not an active mount. -/
def Unmounted (daemon : Daemon) (mounts : List Mount) : Prop :=
  ∀ mnt ∈ daemon.on, ∀ mount ∈ mounts, mount.on ≠ mnt

/-- No daemon was told to end while its mount point was an active mount. -/
def NeverCut (world : World) : Prop :=
  ∀ signal ∈ world.signals, ∀ daemon, signal.receiver = .daemon daemon →
    Unmounted daemon signal.mounts

/-- The daemon is the one that was started for the state. -/
def StartedFor (daemon : Daemon) (st : MountState) : Prop :=
  daemon.pid = st.pid ∧ daemon.device = st.canonDev

/-- Every signal went to a daemon, and one on behalf of a state to the daemon of that state. -/
def OwnOnly (world : World) : Prop :=
  ∀ signal ∈ world.signals, ∃ daemon, signal.receiver = .daemon daemon ∧
    ∀ st ∈ signal.state, StartedFor daemon st

def OneServer (world : World) : Prop := world.daemons.Pairwise fun one other => one.file ≠ other.file

/-- States and daemons are left as they were, but for the daemons that crash by themselves. -/
structure LeftAlone (before after : World) (crashed : List Int) : Prop where
  states : after.states = before.states
  signals : after.signals = before.signals
  daemons : ∀ daemon ∈ before.daemons, daemon ∈ after.daemons ∨ daemon.pid ∈ crashed

/-- The mount is on the mount point of the state, under one of its names. -/
def OnMountPoint (sight : Sight) (st : MountState) (mount : Mount) : Prop :=
  ∃ name ∈ mountNames sight st.mnt st.canonMnt,
    stripTrailingSlashes mount.on = name ∨
      (sight.realpath (stripTrailingSlashes mount.on)).map stripTrailingSlashes = some name

/-- The path is the mount point of the state. -/
def Covers (st : MountState) (mnt : CString) : Prop :=
  mnt ≠ [] ∧ (stripTrailingSlashes mnt = stripTrailingSlashes st.mnt ∨
    stripTrailingSlashes mnt = stripTrailingSlashes st.canonMnt)

/-- What a step promises apart from `NeverCut` and `OneServer`. -/
def Careful (world : World) : MountEvent → Prop
  | .mount dev dryRun script =>
      ∀ st, (rufuxMount script dev dryRun world).2 = some (.ok (.recorded st)) →
        st.kind = nfsKind →
          (∃ round ∈ script.rounds, ∃ mount ∈ (rufuxMount script dev dryRun world).1.mounts,
            OnMountPoint round.look st mount) ∧
          ∃ daemon ∈ (rufuxMount script dev dryRun world).1.daemons,
            StartedFor daemon st ∧ ∀ mnt ∈ daemon.on, Covers st mnt
  | .unmount dev dryRun script =>
      ∀ st out, (rufuxUnmount script dev dryRun world).2 = .error (.stillActive st out) →
        LeftAlone world (rufuxUnmount script dev dryRun world).1
            (script.umount.crashed ++ script.diskutil.crashed ++ script.force.crashed) ∧
          findMatchingState script.find (rufuxUnmount script dev dryRun world).1.states dev = some st
  | .outside _ _ _ => True
  | .reboot _ _ => True
  | .tidied _ => True

/-! ### When the promises are kept -/

/-- A state file names the process. -/
def Named (world : World) (pid : Int) : Prop :=
  ∃ file ∈ world.states, ∃ st, readMountStateFile file.1 file.2 = some st ∧ st.kind = nfsKind ∧
    st.pid = pid

def Avoids (world : World) (strangers : List Stranger) : Prop :=
  ∀ pid, Named world pid → ∀ stranger ∈ strangers, stranger.pid ≠ pid

def World.namedPids (world : World) : List Int :=
  ((world.states.filterMap fun file => readMountStateFile file.1 file.2).filter (·.kind = nfsKind)).map
    (·.pid)

theorem mem_namedPids {world : World} {pid : Int} : pid ∈ world.namedPids ↔ Named world pid := by
  simp only [World.namedPids, Named, List.mem_map, List.mem_filter, List.mem_filterMap,
    decide_eq_true_eq]
  constructor
  · rintro ⟨st, ⟨⟨file, inside, read⟩, nfs⟩, same⟩
    exact ⟨file, inside, st, read, nfs, same⟩
  · rintro ⟨file, inside, st, read, nfs, same⟩
    exact ⟨st, ⟨⟨file, inside, read⟩, nfs⟩, same⟩

instance (world : World) (pid : Int) : Decidable (Named world pid) :=
  decidable_of_iff _ mem_namedPids

instance (world : World) (strangers : List Stranger) : Decidable (Avoids world strangers) :=
  decidable_of_iff (∀ pid ∈ world.namedPids, ∀ stranger ∈ strangers, stranger.pid ≠ pid)
    (by simp only [Avoids, mem_namedPids])

def OsUnmount.strangers (script : OsUnmount) : List Stranger :=
  script.diskutil.strangers ++ script.umount.strangers

def Round.strangers (round : Round) : List Stranger :=
  round.umount.strangers ++ round.ending.strangers ++ round.detach.strangers

def Launch.strangers (launch : Launch) : List Stranger :=
  launch.unstarted.strangers ++ launch.first.answer.strangers ++ launch.second.answer.strangers ++
    launch.unmounted.strangers

/-- The other processes that there are at some time during the command. -/
def MountScript.strangers (script : MountScript) : List Stranger :=
  script.rounds.flatMap Round.strangers ++ script.osUnmount.strangers ++
    script.probe.unmount.strangers ++ script.osUnmountAgain.strangers ++ script.launch.strangers ++
    script.osUnmountLast.strangers ++ script.relaunch.strangers ++
    script.native.unmount.strangers ++ script.native.mountAt.strangers ++
    script.native.mount.strangers ++ script.native.attach.strangers

def UnmountScript.strangers (script : UnmountScript) : List Stranger :=
  script.umount.strangers ++ script.diskutil.strangers ++ script.force.strangers ++
    script.ending.strangers ++ script.detach.strangers ++ script.detachForce.strangers ++
    script.unmount.strangers ++ script.unmountForce.strangers ++ script.unmountDisk.strangers ++
    script.unmountNode.strangers ++ script.unmountPath.strangers

/-- No process gets an id that a state file still names. -/
def NotRecycled (world : World) : MountEvent → Prop
  | .mount _ _ script =>
      Avoids world script.strangers ∧ ¬ Named world script.launch.pid ∧
        ¬ Named world script.relaunch.pid
  | .unmount _ _ script => Avoids world script.strangers
  | .outside _ _ strangers => Avoids world strangers
  | .reboot _ strangers => Avoids world strangers
  | .tidied _ => True

instance (world : World) : (event : MountEvent) → Decidable (NotRecycled world event)
  | .mount _ _ _ => inferInstanceAs (Decidable (_ ∧ _ ∧ _))
  | .unmount _ _ script => inferInstanceAs (Decidable (Avoids world script.strangers))
  | .outside _ _ strangers => inferInstanceAs (Decidable (Avoids world strangers))
  | .reboot _ strangers => inferInstanceAs (Decidable (Avoids world strangers))
  | .tidied _ => isTrue trivial

/-- The mount point is the directory, or what that resolves to. -/
def Placed (resolveMnt : CString → Option CString) (dir mnt : CString) : Prop :=
  mnt ≠ [] ∧ (stripTrailingSlashes mnt = stripTrailingSlashes dir ∨
    stripTrailingSlashes mnt = stripTrailingSlashes ((resolveMnt dir).getD dir))

/-- `mount_nfs` mounts at the directory it is given, and has not mounted when it fails. -/
structure NfsAnswer.Honest (nfs : NfsAnswer) (resolveMnt : CString → Option CString) : Prop where
  fails : nfs.answer.zero = false → ∀ dir, nfs.on dir = none
  placed : ∀ dir mnt, nfs.on dir = some mnt → Placed resolveMnt dir mnt

/-- The paths of a mount command go through the lines of a state file unchanged, and the file
is written whole or not at all. -/
structure MountScript.Faithful (script : MountScript) (dev : CString) : Prop where
  write : ∀ length slot, script.write ≠ .cut length slot
  path : PlainText dev
  canonDev : ∀ isDev, PlainText (canonDevice script.paths dev isDev)
  stateDir : '\n' ∉ script.stateDir
  place : ∀ root ∈ script.place.envRoot, '\n' ∉ root
  resolved : ∀ dir real, script.resolveMnt dir = some real → PlainText real
  native : ∀ mount ∈ script.native.mountAt.mounts ++ script.native.mount.mounts, PlainText mount.on

/-- The mount table can be read, and `mount_nfs` does what it says. -/
structure MountScript.Watched (script : MountScript) : Prop where
  lists : ∀ round ∈ script.rounds, round.lookAgain.lists = true
  nfs : ∀ nfs ∈ [script.launch.first, script.launch.second, script.relaunch.first,
    script.relaunch.second], nfs.Honest script.resolveMnt

def Faithful : MountEvent → Prop
  | .mount dev _ script => script.Faithful dev
  | .unmount _ _ _ => True
  | .outside _ _ _ => True
  | .reboot _ _ => True
  | .tidied _ => True

def Watched : MountEvent → Prop
  | .mount _ _ script => script.Watched
  | .unmount _ _ script => script.lookLast.lists = true
  | .outside _ _ _ => True
  | .reboot _ _ => True
  | .tidied _ => True

/-! ### The mount table -/

section Table

variable {sight : Sight} {mounts : List Mount} {mount : Mount} {st : MountState} {mnt : CString}

theorem stripTrailingSlashes_nonempty {s : CString} (nonempty : s ≠ []) :
    stripTrailingSlashes s ≠ [] := by
  unfold stripTrailingSlashes
  dsimp only
  split
  · cases s with
    | nil => exact absurd rfl nonempty
    | cons first rest => exact List.cons_ne_nil _ _
  · assumption

theorem stripTrailingSlashes_nil : stripTrailingSlashes [] = [] := rfl

theorem Covers.name (covers : Covers st mnt) :
    stripTrailingSlashes mnt ∈ mountNames sight st.mnt st.canonMnt := by
  have nonempty := stripTrailingSlashes_nonempty covers.1
  unfold mountNames
  rw [List.mem_filter]
  refine ⟨?_, by simpa using nonempty⟩
  rcases covers.2 with same | same
  · rw [same]
    exact List.mem_cons_self
  · rw [same]
    exact List.mem_cons_of_mem _ List.mem_cons_self

theorem Covers.named (covers : Covers st mnt) : ¬ (st.mnt = [] ∧ st.canonMnt = []) := by
  rintro ⟨first, second⟩
  apply stripTrailingSlashes_nonempty covers.1
  rcases covers.2 with same | same
  · rw [same, first, stripTrailingSlashes_nil]
  · rw [same, second, stripTrailingSlashes_nil]

/-- A mount point that is in the table is found there. -/
theorem isMountpointActive_of_mem (lists : sight.lists = true) (covers : Covers st mnt)
    (inside : mount ∈ mounts) (on : mount.on = mnt) :
    isMountpointActive sight mounts st.mnt st.canonMnt = true := by
  unfold isMountpointActive
  rw [if_neg covers.named, lists, Bool.true_and, List.any_eq_true]
  refine ⟨mount, inside, ?_⟩
  have name : stripTrailingSlashes mnt ∈ mountNames sight st.mnt st.canonMnt := covers.name
  rw [on]
  simp [name]

/-- What is found is in the table. -/
theorem mem_of_isMountpointActive
    (active : isMountpointActive sight mounts st.mnt st.canonMnt = true) :
    ∃ mount ∈ mounts, OnMountPoint sight st mount := by
  unfold isMountpointActive at active
  split at active
  · cases active
  · rw [Bool.and_eq_true, List.any_eq_true] at active
    obtain ⟨-, mount, inside, found⟩ := active
    refine ⟨mount, inside, ?_⟩
    rw [Bool.or_eq_true] at found
    rcases found with direct | through
    · exact ⟨_, by simpa using direct, Or.inl rfl⟩
    · split at through
      · cases through
      · rename_i resolved real
        exact ⟨_, by simpa using through, Or.inr (by rw [real]; rfl)⟩

/-- A daemon that a state covers is unmounted where its mount point is not found. -/
theorem Unmounted.of_not_active {daemon : Daemon} (lists : sight.lists = true)
    (gone : isMountpointActive sight mounts st.mnt st.canonMnt = false)
    (covers : ∀ mnt ∈ daemon.on, Covers st mnt) : Unmounted daemon mounts := by
  intro mnt on mount inside same
  rw [isMountpointActive_of_mem lists (covers mnt on) inside same] at gone
  cases gone

end Table

/-! ### The invariant -/

section Invariant

-- `watched` says whether the mount points are followed too
variable (watched : Prop)

/-- What a state says about its daemon is true, and nothing else has the daemon's id. -/
structure Recorded (world : World) (st : MountState) : Prop where
  strangers : ∀ stranger ∈ world.strangers, stranger.pid ≠ st.pid
  daemon : ∀ daemon ∈ world.daemons, daemon.pid = st.pid →
    StartedFor daemon st ∧ (watched → ∀ mnt ∈ daemon.on, Covers st mnt)

def Signal.Good (signal : Signal) : Prop :=
  ∃ daemon, signal.receiver = .daemon daemon ∧ (∀ st ∈ signal.state, StartedFor daemon st) ∧
    (watched → Unmounted daemon signal.mounts)

structure Sound (world : World) : Prop where
  signals : ∀ signal ∈ world.signals, signal.Good watched
  servers : OneServer world
  states : ∀ file ∈ world.states, ∀ st, readMountStateFile file.1 file.2 = some st →
    st.kind = nfsKind → Recorded watched world st

end Invariant

/-- Nothing happens to a world but unmounts, crashes, lost state files and other processes. -/
structure Calm (others : List Stranger) (before after : World) : Prop where
  states : ∀ file ∈ after.states, file ∈ before.states
  daemons : after.daemons.Sublist before.daemons
  signals : after.signals = before.signals
  strangers : ∀ stranger ∈ after.strangers, stranger ∈ before.strangers ∨ stranger ∈ others

section Calm

variable {watched : Prop} {others : List Stranger} {world before after : World} {answer : Answer}
  {bnode : CString}

theorem Calm.refl (world : World) : Calm others world world :=
  ⟨fun _ inside => inside, .refl _, rfl, fun _ inside => Or.inl inside⟩

theorem Calm.trans {middle : World} (first : Calm others before middle)
    (second : Calm others middle after) : Calm others before after where
  states := fun file inside => first.states file (second.states file inside)
  daemons := second.daemons.trans first.daemons
  signals := second.signals.trans first.signals
  strangers := by
    intro stranger inside
    rcases second.strangers stranger inside with there | other
    · exact first.strangers stranger there
    · exact Or.inr other

theorem calm_ran (within : ∀ stranger ∈ answer.strangers, stranger ∈ others) :
    Calm others world (world.ran answer) :=
  ⟨fun _ inside => inside, List.filter_sublist, rfl,
    fun stranger inside => Or.inr (within stranger (List.mem_filter.mp inside).1)⟩

theorem calm_unlinkState {stateFile : UInt64} {works : Bool} :
    Calm others world (world.unlinkState stateFile works) := by
  unfold World.unlinkState
  split
  · exact ⟨fun _ inside => (List.mem_filter.mp inside).1, .refl _, rfl, fun _ inside => Or.inl inside⟩
  · exact .refl world

theorem calm_unmountExistingOsMount {script : OsUnmount}
    (within : ∀ stranger ∈ script.strangers, stranger ∈ others) :
    Calm others world (unmountExistingOsMount script world bnode) := by
  have first : ∀ world, Calm others world (world.ran script.diskutil) := fun world =>
    calm_ran fun stranger inside => within stranger (List.mem_append_left _ inside)
  have second : ∀ world, Calm others world (world.ran script.umount) := fun world =>
    calm_ran fun stranger inside => within stranger (List.mem_append_right _ inside)
  unfold unmountExistingOsMount
  split
  · exact .refl world
  · dsimp only
    split
    · exact first world
    · exact (first world).trans (second _)

theorem calm_detectFsMagicAndLabel {probe : Probe} {isDev : Bool} {hint : CString}
    (within : ∀ stranger ∈ probe.unmount.strangers, stranger ∈ others) :
    Calm others world (detectFsMagicAndLabel probe world bnode isDev hint).1 := by
  have free : Calm others world (if (!probe.opens && isDev && probe.busy) = true then
      unmountExistingOsMount probe.unmount world bnode else world) := by
    split
    · exact calm_unmountExistingOsMount within
    · exact .refl world
  unfold detectFsMagicAndLabel
  dsimp only
  generalize (if (!probe.opens && isDev && probe.busy) = true then
    unmountExistingOsMount probe.unmount world bnode else world) = left at free ⊢
  repeat' split
  all_goals exact free

theorem Avoids.calm (avoids : Avoids before others) (calm : Calm others before after) :
    Avoids after others := by
  rintro pid ⟨file, inside, st, read, nfs, same⟩
  exact avoids pid ⟨file, calm.states file inside, st, read, nfs, same⟩

theorem Sound.calm (sound : Sound watched before) (calm : Calm others before after)
    (avoids : Avoids before others) : Sound watched after where
  signals := by
    rw [calm.signals]
    exact sound.signals
  servers := sound.servers.sublist calm.daemons
  states := by
    intro file inside st read nfs
    have there := calm.states file inside
    obtain ⟨alone, serves⟩ := sound.states file there st read nfs
    refine ⟨?_, fun daemon running => serves daemon (calm.daemons.subset running)⟩
    intro stranger among
    rcases calm.strangers stranger among with old | other
    · exact alone stranger old
    · exact avoids st.pid ⟨file, there, st, read, nfs, rfl⟩ stranger other

/-- The one who may be told to end: a daemon, and for a state the daemon of the state. -/
def MayEnd (watched : Prop) (world : World) (state : Option MountState) (pid : Int) : Prop :=
  (∀ stranger ∈ world.strangers, stranger.pid ≠ pid) ∧
    ∀ daemon ∈ world.daemons, daemon.pid = pid →
      (∀ st ∈ state, StartedFor daemon st) ∧ (watched → Unmounted daemon world.mounts)

theorem MayEnd.calm {state : Option MountState} {pid : Int} (may : MayEnd watched before state pid)
    (daemons : after.daemons.Sublist before.daemons) (mounts : after.mounts = before.mounts)
    (strangers : ∀ stranger ∈ after.strangers, stranger.pid ≠ pid) :
    MayEnd watched after state pid := by
  refine ⟨strangers, ?_⟩
  intro daemon inside same
  rw [mounts]
  exact may.2 daemon (daemons.subset inside) same

theorem Sound.signal {state : Option MountState} {pid : Int} (sound : Sound watched world)
    (may : MayEnd watched world state pid) : Sound watched (world.signal state pid) := by
  refine ⟨?_, sound.servers, fun file inside st read nfs =>
    ⟨(sound.states file inside st read nfs).1, (sound.states file inside st read nfs).2⟩⟩
  intro signal inside
  rcases List.mem_append.mp inside with new | old
  · obtain ⟨receiver, among, rfl⟩ := List.mem_map.mp new
    rcases List.mem_append.mp among with served | other
    · obtain ⟨daemon, chosen, rfl⟩ := List.mem_map.mp served
      obtain ⟨running, same⟩ := List.mem_filter.mp chosen
      obtain ⟨started, unmounted⟩ := may.2 daemon running (by simpa using same)
      exact ⟨daemon, rfl, started, unmounted⟩
    · obtain ⟨stranger, chosen, -⟩ := List.mem_map.mp other
      obtain ⟨there, same⟩ := List.mem_filter.mp chosen
      rw [Bool.and_eq_true, beq_iff_eq] at same
      exact absurd same.1 (may.1 stranger there)
  · exact sound.signals signal old

theorem calm_without {pid : Int} : Calm others world (world.without pid) :=
  ⟨fun _ inside => inside, List.filter_sublist, rfl,
    fun _ inside => Or.inl (List.mem_filter.mp inside).1⟩

theorem calm_met {strangers : List Stranger} (within : ∀ stranger ∈ strangers, stranger ∈ others) :
    Calm others world (world.met strangers) :=
  ⟨fun _ inside => inside, .refl _, rfl,
    fun stranger inside => Or.inr (within stranger (List.mem_filter.mp inside).1)⟩

theorem terminateAndWaitPid_states {state : Option MountState} {pid : Int} {ending : Ending} :
    (terminateAndWaitPid world state pid ending).states = world.states := by
  unfold terminateAndWaitPid
  dsimp only
  repeat' split
  all_goals rfl

/-- Telling a process to end is sound for a daemon that may end. Nobody takes its id before
the last signal: it is not free, or it is one that a state names. -/
theorem Sound.terminate {state : Option MountState} {pid : Int} {ending : Ending}
    (sound : Sound watched world) (may : MayEnd watched world state pid)
    (avoids : Avoids world others) (within : ∀ stranger ∈ ending.strangers, stranger ∈ others)
    (kept : state ≠ none → Named world pid) :
    Sound watched (terminateAndWaitPid world state pid ending) := by
  have warned := sound.signal may
  unfold terminateAndWaitPid
  split
  · exact sound
  · rename_i running
    rw [not_or, Bool.not_eq_false] at running
    dsimp only
    split
    · have gone : Calm others (world.signal state pid) ((world.signal state pid).without pid) :=
        calm_without
      exact warned.calm gone avoids
    · rename_i unseen
      have left : Calm others (world.signal state pid) (if ending.exits = true then
          (world.signal state pid).without pid else world.signal state pid) := by
        split
        · exact calm_without
        · exact .refl _
      have waiting : Sound watched ((if ending.exits = true then
          (world.signal state pid).without pid else world.signal state pid).met ending.strangers) :=
        warned.calm (left.trans (calm_met within)) avoids
      have alone : ∀ stranger ∈ ((if ending.exits = true then (world.signal state pid).without pid
          else world.signal state pid).met ending.strangers).strangers, stranger.pid ≠ pid := by
        intro stranger inside same
        obtain ⟨other, free⟩ := List.mem_filter.mp inside
        cases state with
        | some st => exact avoids pid (kept nofun) stranger (within stranger other) same
        | none =>
            have stays : ¬ ending.exits = true := fun exits => unseen ⟨exits, rfl⟩
            rw [if_neg stays] at free
            have daemon : world.daemons.any (·.pid == pid) = true := by
              rcases Bool.or_eq_true _ _ ▸ running.2 with daemon | there
              · exact daemon
              · obtain ⟨stranger, among, same⟩ := List.any_eq_true.mp there
                exact absurd (by simpa using same) (may.1 stranger among)
            rw [same] at free
            rw [show (world.signal none pid).daemons = world.daemons from rfl, daemon] at free
            cases free
      have mounts : (if ending.exits = true then (world.signal state pid).without pid
          else world.signal state pid).mounts = world.mounts := by
        split <;> rfl
      have mayStill : MayEnd watched ((if ending.exits = true then (world.signal state pid).without
          pid else world.signal state pid).met ending.strangers) state pid :=
        may.calm left.daemons mounts alone
      generalize (if ending.exits = true then (world.signal state pid).without pid
        else world.signal state pid).met ending.strangers = waited at waiting mayStill ⊢
      have killed : Sound watched (waited.signal state pid) := waiting.signal mayStill
      have gone : Calm [] (waited.signal state pid) ((waited.signal state pid).without pid) :=
        calm_without
      split
      · exact waiting
      · split
        · exact killed.calm gone fun _ _ _ => nofun
        · exact killed

end Calm

/-! ### State files -/

section Files

variable {watched : Prop} {world : World} {st : MountState} {states : StateDir} {slot : Nat}
  {id : UInt64} {text : CString} {file : UInt64 × CString}

theorem mem_put (inside : file ∈ states.put slot id text) : file ∈ states ∨ file = (id, text) := by
  unfold StateDir.put at inside
  split at inside
  · obtain ⟨old, there, rfl⟩ := List.mem_map.mp inside
    split
    · exact Or.inr rfl
    · exact Or.inl there
  · rcases List.mem_append.mp inside with before | rest
    · exact Or.inl (List.mem_of_mem_take before)
    · rcases List.mem_cons.mp rest with rfl | after
      · exact Or.inr rfl
      · exact Or.inl (List.mem_of_mem_drop after)

/-- Writing a state that is true of its daemon is sound. -/
theorem Sound.write {write : StateWrite} (sound : Sound watched world) (plain : st.Plain)
    (uncut : ∀ length slot, write ≠ .cut length slot)
    (recorded : st.kind = nfsKind → Recorded watched world st) :
    Sound watched (writeMountState write world st) := by
  cases write with
  | refused => exact sound
  | cut length slot => exact absurd rfl (uncut length slot)
  | whole slot =>
      refine ⟨sound.signals, sound.servers, ?_⟩
      intro file inside other read kind
      rcases mem_put inside with old | rfl
      · obtain ⟨alone, serves⟩ := sound.states file old other read kind
        exact ⟨alone, serves⟩
      · rw [readMountStateFile_text plain] at read
        cases read
        obtain ⟨alone, serves⟩ := recorded kind
        exact ⟨alone, serves⟩

end Files

/-! ### Starting a daemon -/

/-- The daemon that was just started: no state file speaks of it yet. -/
structure Starting (watched : Prop) (world : World) (pid : Int) (canonDev : CString)
    (on : CString → Prop) : Prop where
  sound : Sound watched world
  strangers : ∀ stranger ∈ world.strangers, stranger.pid ≠ pid
  unnamed : ¬ Named world pid
  daemon : ∀ daemon ∈ world.daemons, daemon.pid = pid →
    daemon.device = canonDev ∧ (watched → ∀ mnt ∈ daemon.on, on mnt)

section Launch

variable {watched : Prop} {others : List Stranger} {world : World} {launch : Launch}
  {canonDev mntDir : CString} {pid : Int} {on on' : CString → Prop} {nfs : NfsAnswer}

theorem runs_false (free : world.runs pid = false) :
    (∀ daemon ∈ world.daemons, daemon.pid ≠ pid) ∧
      ∀ stranger ∈ world.strangers, stranger.pid ≠ pid := by
  unfold World.runs at free
  rw [Bool.or_eq_false_iff, List.any_eq_false, List.any_eq_false] at free
  exact ⟨fun daemon inside => by simpa using free.1 daemon inside,
    fun stranger inside => by simpa using free.2 stranger inside⟩

theorem fork_spec (forked : world.fork launch = some pid) :
    pid = launch.pid ∧ 1 < pid ∧ world.runs pid = false := by
  unfold World.fork at forked
  split at forked
  · rename_i free
    cases forked
    exact ⟨rfl, free.2⟩
  · cases forked

theorem started_spec (sound : Sound watched world) (free : world.runs pid = false)
    (unnamed : ¬ Named world pid) :
    Starting watched (world.started launch pid canonDev).1 pid canonDev fun _ => False := by
  obtain ⟨noDaemon, noStranger⟩ := runs_false free
  have born : Starting watched world pid canonDev fun _ => False :=
    ⟨sound, noStranger, unnamed, fun daemon inside same => absurd same (noDaemon daemon inside)⟩
  have running (unlocked : ¬ world.daemons.any (·.file == launch.file) = true) :
      Starting watched { world with
        daemons := ⟨pid, canonDev, launch.file, none⟩ :: world.daemons } pid canonDev
        fun _ => False := by
    refine ⟨⟨sound.signals, ?_, ?_⟩, noStranger, unnamed, ?_⟩
    · refine List.pairwise_cons.mpr ⟨?_, sound.servers⟩
      intro daemon inside same
      exact unlocked (List.any_eq_true.mpr ⟨daemon, inside, by simpa using same.symm⟩)
    · intro file inside st read kind
      obtain ⟨alone, serves⟩ := sound.states file inside st read kind
      refine ⟨alone, ?_⟩
      intro daemon running same
      rcases List.mem_cons.mp running with rfl | old
      · exact absurd ⟨file, inside, st, read, kind, same.symm⟩ unnamed
      · exact serves daemon old same
    · intro daemon inside same
      rcases List.mem_cons.mp inside with rfl | old
      · exact ⟨rfl, fun _ => nofun⟩
      · exact absurd same (noDaemon daemon old)
  unfold World.started
  dsimp only
  split
  · exact born
  · rename_i unlocked
    split
    · exact born
    · exact running unlocked
    · exact running unlocked

theorem started_states : (world.started launch pid canonDev).1.states = world.states := by
  unfold World.started
  dsimp only
  split
  · rfl
  · split <;> rfl

theorem Starting.mountNfs (starting : Starting watched world pid canonDev on)
    (avoids : Avoids world others)
    (within : ∀ stranger ∈ nfs.answer.strangers, stranger ∈ others)
    (weaker : ∀ mnt, on mnt → on' mnt) (mounts : watched → ∀ mnt, nfs.on mntDir = some mnt → on' mnt) :
    Starting watched (world.mountNfs pid mntDir nfs) pid canonDev on' := by
  have ran : Calm others world (world.ran nfs.answer) := calm_ran within
  have sound := starting.sound.calm ran avoids
  have same : ∀ daemon : Daemon, (if daemon.pid = pid then
      { daemon with on := (nfs.on mntDir).or daemon.on } else daemon).pid = daemon.pid := by
    intro daemon
    split <;> rfl
  refine ⟨⟨sound.signals, ?_, ?_⟩, ?_, starting.unnamed, ?_⟩
  · unfold OneServer World.mountNfs
    rw [List.pairwise_map]
    refine List.Pairwise.imp ?_ sound.servers
    intro one other different
    split <;> split <;> exact different
  · intro file inside st read kind
    obtain ⟨alone, serves⟩ := sound.states file inside st read kind
    refine ⟨fun stranger there => alone stranger (List.mem_filter.mp there).1, ?_⟩
    intro daemon running served
    obtain ⟨old, there, rfl⟩ := List.mem_map.mp running
    rw [same] at served
    have other : old.pid ≠ pid := by
      intro mine
      exact starting.unnamed ⟨file, inside, st, read, kind, served.symm.trans mine⟩
    rw [if_neg other]
    exact serves old there served
  · intro stranger there
    simpa using (List.mem_filter.mp there).2
  · intro daemon inside served
    obtain ⟨old, there, rfl⟩ := List.mem_map.mp inside
    rw [same] at served
    obtain ⟨device, mounted⟩ := starting.daemon old (List.mem_filter.mp there).1 served
    rw [if_pos served]
    refine ⟨device, ?_⟩
    intro followed mnt there
    rcases Option.or_eq_some_iff.mp there with new | ⟨-, kept⟩
    · exact mounts followed mnt new
    · exact weaker mnt (mounted followed mnt kept)

/-- A daemon that has not been mounted may be told to end. -/
theorem Starting.terminate {ending : Ending}
    (starting : Starting watched world pid canonDev fun _ => False) (avoids : Avoids world others)
    (within : ∀ stranger ∈ ending.strangers, stranger ∈ others) :
    Sound watched (terminateAndWaitPid world none pid ending) := by
  refine starting.sound.terminate ⟨starting.strangers, ?_⟩ avoids within fun some => absurd rfl some
  intro daemon inside same
  refine ⟨nofun, ?_⟩
  intro followed mnt on
  exact ((starting.daemon daemon inside same).2 followed mnt on).elim

/-- What a launch leaves: a sound world, and the new daemon when it has worked. -/
theorem launch_spec {resolveMnt : CString → Option CString} (canonDev mntDir : CString)
    (sound : Sound watched world) (unnamed : ¬ Named world launch.pid)
    (avoids : Avoids world others) (within : ∀ stranger ∈ launch.strangers, stranger ∈ others)
    (honest : watched → launch.first.Honest resolveMnt ∧ launch.second.Honest resolveMnt) :
    Sound watched (launchMountdAndMountNfs launch world canonDev mntDir).1 ∧
      (launchMountdAndMountNfs launch world canonDev mntDir).1.states = world.states ∧
      ∀ pid, (launchMountdAndMountNfs launch world canonDev mntDir).2 = .ok pid → 1 < pid ∧
        Starting watched (launchMountdAndMountNfs launch world canonDev mntDir).1 pid canonDev
          (Placed resolveMnt mntDir) := by
  unfold launchMountdAndMountNfs
  split
  · exact ⟨sound, rfl, nofun⟩
  · rename_i pid forked
    obtain ⟨rfl, positive, free⟩ := fork_spec forked
    have started : Starting watched (world.started launch launch.pid canonDev).1 launch.pid canonDev
        fun _ => False := started_spec sound free unnamed
    have states : (world.started launch launch.pid canonDev).1.states = world.states :=
      started_states
    generalize world.started launch launch.pid canonDev = born at started states
    have avoidsBorn : Avoids born.1 others := by
      unfold Avoids Named at avoids ⊢
      rwa [states]
    have inFirst : ∀ stranger ∈ launch.first.answer.strangers, stranger ∈ others :=
      fun stranger inside => within stranger (by simp [Launch.strangers, inside])
    have inSecond : ∀ stranger ∈ launch.second.answer.strangers, stranger ∈ others :=
      fun stranger inside => within stranger (by simp [Launch.strangers, inside])
    dsimp only
    split
    · refine ⟨started.terminate avoidsBorn ?_, terminateAndWaitPid_states.trans states, nofun⟩
      exact fun stranger inside => within stranger (by simp [Launch.strangers, inside])
    · have tried : Starting watched (born.1.mountNfs launch.pid mntDir launch.first) launch.pid
          canonDev (Placed resolveMnt mntDir) :=
        started.mountNfs avoidsBorn inFirst (fun _ never => never.elim)
          fun followed => (honest followed).1.placed mntDir
      split
      · refine ⟨tried.sound, states, ?_⟩
        intro pid same
        cases same
        exact ⟨positive, tried⟩
      · rename_i failed
        have retried : Starting watched ((born.1.mountNfs launch.pid mntDir launch.first).mountNfs
            launch.pid mntDir launch.second) launch.pid canonDev (Placed resolveMnt mntDir) :=
          tried.mountNfs avoidsBorn inSecond (fun _ placed => placed)
            fun followed => (honest followed).2.placed mntDir
        split
        · refine ⟨retried.sound, states, ?_⟩
          intro pid same
          cases same
          exact ⟨positive, retried⟩
        · rename_i failedAgain
          -- neither attempt has mounted anything
          have nowhere : Starting watched (born.1.mountNfs launch.pid mntDir launch.first) launch.pid
              canonDev fun _ => False := by
            refine started.mountNfs avoidsBorn inFirst (fun _ never => never) ?_
            intro followed mnt there
            rw [(honest followed).1.fails (by simpa using failed)] at there
            cases there
          have nowhereAgain : Starting watched ((born.1.mountNfs launch.pid mntDir
              launch.first).mountNfs launch.pid mntDir launch.second) launch.pid canonDev
              fun _ => False := by
            refine nowhere.mountNfs avoidsBorn inSecond (fun _ never => never) ?_
            intro followed mnt there
            rw [(honest followed).2.fails (by simpa using failedAgain)] at there
            cases there
          refine ⟨nowhereAgain.terminate avoidsBorn ?_, terminateAndWaitPid_states.trans states, nofun⟩
          exact fun stranger inside => within stranger (by simp [Launch.strangers, inside])

end Launch

/-! ### The loop over existing state files -/

section Cleanup

variable {watched : Prop} {others : List Stranger} {world : World} {round : Round}
  {existing st : MountState} {file : UInt64 × CString} {rounds : List Round}
  {canonDev dev : CString}

theorem pidIsAlive_daemon {pid : Int} (alive : pidIsAlive world pid = true)
    (alone : ∀ stranger ∈ world.strangers, stranger.pid ≠ pid) :
    ∃ daemon ∈ world.daemons, daemon.pid = pid := by
  unfold pidIsAlive World.runs at alive
  rw [Bool.and_eq_true, Bool.or_eq_true, List.any_eq_true, List.any_eq_true] at alive
  rcases alive.2 with ⟨daemon, inside, same⟩ | ⟨stranger, inside, same⟩
  · exact ⟨daemon, inside, by simpa using same⟩
  · exact absurd (by simpa using same) (alone stranger inside)

/-- The daemon of a state may end once the state's mount point is not found. -/
theorem Recorded.mayEnd {sight : Sight} (recorded : Recorded watched world st)
    (lists : watched → sight.lists = true)
    (gone : ¬ isMountpointActive sight world.mounts st.mnt st.canonMnt = true) :
    MayEnd watched world (some st) st.pid := by
  refine ⟨recorded.strangers, ?_⟩
  intro daemon running same
  obtain ⟨started, covers⟩ := recorded.daemon daemon running same
  refine ⟨?_, ?_⟩
  · rintro _ ⟨⟩
    exact started
  · intro followed
    exact .of_not_active (lists followed) (by simpa using gone) (covers followed)

theorem forgetState_spec (round : Round) (existing : MountState) (sound : Sound watched world) :
    Sound watched (forgetState round world existing).1 ∧
      (∀ file ∈ (forgetState round world existing).1.states, file ∈ world.states) ∧
      ∀ st, (forgetState round world existing).2 ≠ .answers st := by
  have calm : Calm [] world (world.unlinkState existing.stateFile round.unlinks) := calm_unlinkState
  refine ⟨sound.calm calm (fun _ _ _ => nofun), calm.states, ?_⟩
  intro st
  unfold forgetState
  dsimp only
  split <;> nofun

/-- What one round leaves, and when it answers. -/
theorem mountRound_spec (sound : Sound watched world) (inside : file ∈ world.states)
    (read : readMountStateFile file.1 file.2 = some existing)
    (lists : watched → round.lookAgain.lists = true) (avoids : Avoids world others)
    (within : ∀ stranger ∈ round.strangers, stranger ∈ others) :
    Sound watched (mountRound round world existing).1 ∧
      (∀ file ∈ (mountRound round world existing).1.states, file ∈ world.states) ∧
      ∀ st, (mountRound round world existing).2 = .answers st →
        (mountRound round world existing).1 = world ∧ st = existing ∧
          isMountpointActive round.look world.mounts st.mnt st.canonMnt = true ∧
          (st.kind = nfsKind → pidIsAlive world st.pid = true) := by
  have inUmount : ∀ stranger ∈ round.umount.strangers, stranger ∈ others :=
    fun stranger inside => within stranger (by simp [Round.strangers, inside])
  have inEnding : ∀ stranger ∈ round.ending.strangers, stranger ∈ others :=
    fun stranger inside => within stranger (by simp [Round.strangers, inside])
  have inDetach : ∀ stranger ∈ round.detach.strangers, stranger ∈ others :=
    fun stranger inside => within stranger (by simp [Round.strangers, inside])
  unfold mountRound
  dsimp only
  split
  · rename_i nfs
    split
    · rename_i both
      rw [Bool.and_eq_true] at both
      refine ⟨sound, fun _ there => there, ?_⟩
      intro st same
      cases same
      exact ⟨rfl, rfl, both.1, fun _ => both.2⟩
    · have calm : Calm others world (if isMountpointActive round.look world.mounts existing.mnt
          existing.canonMnt = true then world.ran round.umount else world) := by
        split
        · exact calm_ran inUmount
        · exact .refl world
      have kept : (if isMountpointActive round.look world.mounts existing.mnt
          existing.canonMnt = true then world.ran round.umount else world).states = world.states := by
        split <;> rfl
      generalize (if isMountpointActive round.look world.mounts existing.mnt
        existing.canonMnt = true then world.ran round.umount else world) = freed at calm kept ⊢
      have free : Sound watched freed := sound.calm calm avoids
      have there : file ∈ freed.states := kept ▸ inside
      split
      · exact ⟨free, calm.states, nofun⟩
      · rename_i gone
        -- the look that found nothing is the last thing before the signal
        have recorded := free.states file there existing read nfs
        have ended : Sound watched
            (terminateAndWaitPid freed (some existing) existing.pid round.ending) :=
          free.terminate (recorded.mayEnd lists gone) (avoids.calm calm) inEnding
            fun _ => ⟨file, there, existing, read, nfs, rfl⟩
        have same : (terminateAndWaitPid freed (some existing) existing.pid round.ending).states =
            world.states := terminateAndWaitPid_states.trans kept
        split
        · exact ⟨ended, fun _ there => same ▸ there, nofun⟩
        · obtain ⟨last, fewer, silent⟩ := forgetState_spec round existing ended
          exact ⟨last, fun file there => same ▸ fewer file there,
            fun st answered => absurd answered (silent st)⟩
  · rename_i other
    split
    · rename_i active
      refine ⟨sound, fun _ there => there, ?_⟩
      intro st same
      cases same
      exact ⟨rfl, rfl, active, fun nfs => absurd nfs other⟩
    · split
      · have calm : Calm others world (world.ran round.detach) := calm_ran inDetach
        obtain ⟨last, fewer, silent⟩ := forgetState_spec round existing (sound.calm calm avoids)
        exact ⟨last, fewer, fun st answered => absurd answered (silent st)⟩
      · obtain ⟨last, fewer, silent⟩ := forgetState_spec round existing sound
        exact ⟨last, fewer, fun st answered => absurd answered (silent st)⟩

/-- A round that goes on has removed the state file that it was about. -/
theorem mountRound_again (inside : file ∈ world.states)
    (read : readMountStateFile file.1 file.2 = some existing)
    (again : (mountRound round world existing).2 = .again) :
    (mountRound round world existing).1.states.length < world.states.length := by
  have forgot : ∀ between : World, between.states = world.states →
      (forgetState round between existing).2 = .again →
        (forgetState round between existing).1.states.length < world.states.length := by
    intro between same goes
    unfold forgetState World.unlinkState at goes ⊢
    dsimp only at goes ⊢
    split at goes
    · rename_i works
      rw [if_pos works, same]
      refine List.length_filter_lt_length_iff_exists.mpr ⟨file, inside, ?_⟩
      simp [readMountStateFile_stateFile read]
    · cases goes
  unfold mountRound at again ⊢
  dsimp only at again ⊢
  split at again
  · rename_i nfs
    rw [if_pos nfs]
    split at again
    · cases again
    · rename_i idle
      rw [if_neg idle]
      have kept : (if isMountpointActive round.look world.mounts existing.mnt
          existing.canonMnt = true then world.ran round.umount else world).states = world.states := by
        split <;> rfl
      generalize (if isMountpointActive round.look world.mounts existing.mnt
        existing.canonMnt = true then world.ran round.umount else world) = freed at kept again ⊢
      split at again
      · cases again
      · rename_i gone
        rw [if_neg gone]
        split at again
        · cases again
        · rename_i dead
          rw [if_neg dead]
          exact forgot _ (terminateAndWaitPid_states.trans kept) again
  · rename_i other
    rw [if_neg other]
    split at again
    · cases again
    · rename_i free
      rw [if_neg free]
      split at again
      · rename_i attached
        rw [if_pos attached]
        exact forgot _ rfl again
      · rename_i plain
        rw [if_neg plain]
        exact forgot _ rfl again

theorem found_mem {find findDev : Sight}
    (found : (findMatchingState find world.states canonDev).or
      (findMatchingState findDev world.states dev) = some existing) :
    ∃ file ∈ world.states, readMountStateFile file.1 file.2 = some existing := by
  rcases Option.or_eq_some_iff.mp found with first | ⟨-, second⟩
  · exact findMatchingState_mem first
  · exact findMatchingState_mem second

theorem Avoids.fewer {after : World} (avoids : Avoids world others)
    (fewer : ∀ file ∈ after.states, file ∈ world.states) : Avoids after others := by
  rintro pid ⟨file, inside, st, read, nfs, same⟩
  exact avoids pid ⟨file, fewer file inside, st, read, nfs, same⟩

/-- What the loop leaves, and what an answer from it says. -/
theorem cleanup_spec (canonDev dev : CString) (sound : Sound watched world)
    (lists : watched → ∀ round ∈ rounds, round.lookAgain.lists = true) (avoids : Avoids world others)
    (within : ∀ round ∈ rounds, ∀ stranger ∈ round.strangers, stranger ∈ others) :
    Sound watched (cleanup canonDev dev rounds world).1 ∧
      (∀ file ∈ (cleanup canonDev dev rounds world).1.states, file ∈ world.states) ∧
      ∀ st, (cleanup canonDev dev rounds world).2 = .answered st → st.kind = nfsKind →
        (∃ round ∈ rounds, ∃ mount ∈ (cleanup canonDev dev rounds world).1.mounts,
          OnMountPoint round.look st mount) ∧
        ∃ daemon ∈ (cleanup canonDev dev rounds world).1.daemons,
          StartedFor daemon st ∧ (watched → ∀ mnt ∈ daemon.on, Covers st mnt) := by
  induction rounds generalizing world with
  | nil => exact ⟨sound, fun _ there => there, nofun⟩
  | cons round rest ih =>
      unfold cleanup
      split
      · exact ⟨sound, fun _ there => there, nofun⟩
      · rename_i existing found
        obtain ⟨file, inside, read⟩ := found_mem found
        obtain ⟨kept, fewer, answers⟩ := mountRound_spec sound inside read
          (fun followed => lists followed round List.mem_cons_self) avoids
          (within round List.mem_cons_self)
        split <;> rename_i after _ ran <;> rw [ran] at kept fewer answers
        · refine ⟨kept, fewer, ?_⟩
          intro st same nfs
          cases same
          obtain ⟨rfl, rfl, active, alive⟩ := answers _ rfl
          obtain ⟨mount, there, on⟩ := mem_of_isMountpointActive active
          have recorded := kept.states file inside _ read nfs
          obtain ⟨daemon, running, pid⟩ := pidIsAlive_daemon (alive nfs) recorded.strangers
          exact ⟨⟨round, List.mem_cons_self, mount, there, on⟩, daemon, running,
            recorded.daemon daemon running pid⟩
        · exact ⟨kept, fewer, nofun⟩
        · exact ⟨kept, fewer, nofun⟩
        · obtain ⟨last, lastFewer, lastAnswers⟩ := ih kept
            (fun followed round inside => lists followed round (List.mem_cons_of_mem _ inside))
            (avoids.fewer fewer) fun round inside => within round (List.mem_cons_of_mem _ inside)
          refine ⟨last, fun file there => fewer file (lastFewer file there), ?_⟩
          intro st same nfs
          obtain ⟨⟨round, among, found⟩, served⟩ := lastAnswers st same nfs
          exact ⟨⟨round, List.mem_cons_of_mem _ among, found⟩, served⟩

/-- The loop ends: a script with more rounds than there are state files does not run out. -/
theorem cleanup_ends (enough : world.states.length < rounds.length) :
    (cleanup canonDev dev rounds world).2 ≠ .running := by
  induction rounds generalizing world with
  | nil => exact absurd enough (Nat.not_lt_zero _)
  | cons round rest ih =>
      unfold cleanup
      split
      · nofun
      · rename_i existing found
        obtain ⟨file, inside, read⟩ := found_mem found
        split <;> rename_i ran
        · nofun
        · nofun
        · nofun
        · have fewer := mountRound_again inside read (congrArg Prod.snd ran)
          rw [ran] at fewer
          dsimp only at fewer
          rw [List.length_cons] at enough
          exact ih (by omega)

end Cleanup

/-! ### The rest of a mount -/

section Mounting

variable {watched : Prop} {world : World} {script : MountScript} {dev label mntDir mnt : CString}
  {isDev : Bool} {pid : Int} {start : World}

theorem newState_plain {kind : CString} (faithful : script.Faithful dev) (plain : PlainText mntDir)
    (kindPlain : PlainText kind ∧ kind ≠ [] ∧ kind.length ≤ 31) :
    (newState script dev kind isDev mntDir).Plain where
  kind := kindPlain
  pid := ⟨0, rfl⟩
  dev := faithful.path
  canonDev := faithful.canonDev isDev
  mnt := plain
  canonMnt := by
    unfold newState
    dsimp only
    cases real : script.resolveMnt mntDir with
    | none => exact plain
    | some resolved => exact faithful.resolved mntDir resolved real
  attachedDisk := ⟨plainText_nil, Nat.zero_le _⟩
  pidfile := plainText_nil
  createdDir := ⟨1, rfl⟩

theorem nfsState_plain (faithful : script.Faithful dev) (plain : PlainText mntDir) (real : 1 < pid) :
    (nfsState script dev isDev mntDir pid).Plain := by
  have base : (newState script dev nfsKind isDev mntDir).Plain :=
    newState_plain faithful plain ⟨.of_all (by decide), by decide, by decide⟩
  have natural : ∃ n : Nat, pid = n := ⟨pid.toNat, by omega⟩
  have pidfile : PlainText (script.stateDir ++ '/' :: hex16 (stateId (canonDevice script.paths dev isDev)
      mntDir) ++ ".pid".toList) := by
    have whole : ∀ tail : CString, script.stateDir ++ '/' :: tail ++ ".pid".toList =
        script.stateDir ++ ('/' :: tail ++ ".pid".toList) := by simp
    have letters : ∀ char ∈ ".pid".toList, 32 ≤ char.toNat :=
      List.forall_iff_forall_mem.mp (by decide)
    rw [whole]
    refine .append_printable faithful.stateDir ?_ (by simp)
    intro char inside
    rcases List.mem_append.mp inside with front | ending
    · rcases List.mem_cons.mp front with rfl | digit
      · decide
      · exact hex16_printable digit
    · exact letters char ending
  exact { base with pid := natural, pidfile := pidfile }

/-- The state of a daemon that was just started may be written. -/
theorem writeNfs_sound
    (starting : Starting watched world pid (canonDevice script.paths dev isDev)
      (Placed script.resolveMnt mntDir))
    (faithful : script.Faithful dev) (plain : PlainText mntDir) (real : 1 < pid) :
    Sound watched (writeMountState script.write world (nfsState script dev isDev mntDir pid)) := by
  refine starting.sound.write (nfsState_plain faithful plain real) faithful.write ?_
  intro _
  refine ⟨starting.strangers, ?_⟩
  intro daemon inside same
  obtain ⟨device, placed⟩ := starting.daemon daemon inside same
  exact ⟨⟨same, device⟩, fun followed mnt there => placed followed mnt there⟩

/-- No process of the command has an id that a state file names. -/
structure Clear (script : MountScript) (world : World) : Prop where
  strangers : Avoids world script.strangers
  launch : ¬ Named world script.launch.pid
  relaunch : ¬ Named world script.relaunch.pid

theorem Named.fewer (named : Named world pid) (fewer : ∀ file ∈ world.states, file ∈ start.states) :
    Named start pid := by
  obtain ⟨file, inside, found⟩ := named
  exact ⟨file, fewer file inside, found⟩

theorem Clear.fewer (clear : Clear script start)
    (fewer : ∀ file ∈ world.states, file ∈ start.states) : Clear script world where
  strangers := clear.strangers.fewer fewer
  launch := fun named => clear.launch (named.fewer fewer)
  relaunch := fun named => clear.relaunch (named.fewer fewer)

theorem mountThroughDaemon_sound (sound : Sound watched world) (faithful : script.Faithful dev)
    (followed : watched → script.Watched) (clear : Clear script world)
    (labelled : label ≠ [] ∧ ∀ char ∈ label, 32 ≤ char.toNat) :
    Sound watched (mountThroughDaemon script dev isDev label world).1 := by
  have inAgain : ∀ stranger ∈ script.osUnmountAgain.strangers, stranger ∈ script.strangers :=
    fun stranger inside => by simp [MountScript.strangers, inside]
  have inLaunch : ∀ stranger ∈ script.launch.strangers, stranger ∈ script.strangers :=
    fun stranger inside => by simp [MountScript.strangers, inside]
  have inLast : ∀ stranger ∈ script.osUnmountLast.strangers, stranger ∈ script.strangers :=
    fun stranger inside => by simp [MountScript.strangers, inside]
  have inRelaunch : ∀ stranger ∈ script.relaunch.strangers, stranger ∈ script.strangers :=
    fun stranger inside => by simp [MountScript.strangers, inside]
  unfold mountThroughDaemon
  dsimp only
  split
  · exact sound
  · have calm : Calm script.strangers world (if isDev = true then
        unmountExistingOsMount script.osUnmountAgain world (mountNode script.paths dev isDev) else world) := by
      split
      · exact calm_unmountExistingOsMount inAgain
      · exact .refl world
    generalize (if isDev = true then
      unmountExistingOsMount script.osUnmountAgain world (mountNode script.paths dev isDev) else world) =
        free at calm ⊢
    have clearFree : Clear script free := clear.fewer calm.states
    split
    · exact sound.calm calm clear.strangers
    · rename_i mntDir made
      have plain : PlainText mntDir :=
        makeUniqueMountDir_plain faithful.place labelled.1 labelled.2 made
      obtain ⟨kept, states, works⟩ := launch_spec (canonDevice script.paths dev isDev) mntDir
        (sound.calm calm clear.strangers) clearFree.launch clearFree.strangers inLaunch
        fun on => ⟨(followed on).nfs _ (by simp), (followed on).nfs _ (by simp)⟩
      split <;> rename_i after _ ran <;> rw [ran] at kept states works
      · obtain ⟨positive, starting⟩ := works _ rfl
        exact writeNfs_sound starting faithful plain positive
      · split
        · exact kept
        · have calmAgain : Calm script.strangers after (unmountExistingOsMount script.osUnmountLast
              after (mountNode script.paths dev isDev)) := calm_unmountExistingOsMount inLast
          have clearAfter : Clear script after := clearFree.fewer fun file inside => states ▸ inside
          generalize unmountExistingOsMount script.osUnmountLast after
            (mountNode script.paths dev isDev) = freed at calmAgain ⊢
          have clearFreed : Clear script freed := clearAfter.fewer calmAgain.states
          obtain ⟨keptAgain, -, worksAgain⟩ := launch_spec (canonDevice script.paths dev isDev) mntDir
            (kept.calm calmAgain clearAfter.strangers) clearFreed.relaunch clearFreed.strangers
            inRelaunch fun on => ⟨(followed on).nfs _ (by simp), (followed on).nfs _ (by simp)⟩
          split <;> rename_i ranAgain <;> rw [ranAgain] at keptAgain worksAgain
          · obtain ⟨positive, starting⟩ := worksAgain _ rfl
            exact writeNfs_sound starting faithful plain positive
          · exact keptAgain

theorem mem_of_findActiveMountForDev {sight : Sight} {mounts : List Mount} {devPath : CString}
    {mount : Mount} (found : findActiveMountForDev sight mounts devPath = some mount) :
    mount ∈ mounts := by
  unfold findActiveMountForDev at found
  split at found
  · split at found <;> exact List.mem_of_find?_eq_some found
  · cases found

theorem diskutilMountAt_spec {bnode : CString} (faithful : script.Faithful dev) :
    Calm script.strangers world (diskutilMountAt script bnode label world).1 ∧
      ∀ mnt, (diskutilMountAt script bnode label world).2 = some mnt → PlainText mnt := by
  unfold diskutilMountAt
  split
  · refine ⟨calm_ran fun stranger inside => by simp [MountScript.strangers, inside], ?_⟩
    intro mnt found
    dsimp only at found
    split at found
    · obtain ⟨mount, among, rfl⟩ := Option.map_eq_some_iff.mp found
      exact faithful.native mount (List.mem_append_left _ (mem_of_findActiveMountForDev among))
    · cases found
  · exact ⟨.refl world, nofun⟩

/-- What `diskutil mount` leaves, and that its mount point fits a line. -/
theorem diskutilMount_spec {bnode : CString} (faithful : script.Faithful dev) :
    Calm script.strangers world (diskutilMount script bnode label world).1 ∧
      ∀ mnt created, (diskutilMount script bnode label world).2 = .ok (mnt, created) →
        PlainText mnt := by
  have ran (between : World) (calm : Calm script.strangers world between) :
      Calm script.strangers world (between.ran script.native.mount) :=
    calm.trans (calm_ran fun stranger inside => by simp [MountScript.strangers, inside])
  obtain ⟨calm, plain⟩ : Calm script.strangers world (diskutilMountAt script bnode label world).1 ∧
      ∀ mnt, (diskutilMountAt script bnode label world).2 = some mnt → PlainText mnt :=
    diskutilMountAt_spec faithful
  unfold diskutilMount
  split <;> rename_i attempted <;> rw [attempted] at calm plain
  · refine ⟨calm, ?_⟩
    intro mnt created same
    cases same
    exact plain _ rfl
  · dsimp only
    split
    · rename_i mount found
      refine ⟨ran _ calm, ?_⟩
      intro mnt created same
      cases same
      split at found
      · exact faithful.native mount (List.mem_append_right _ (mem_of_findActiveMountForDev found))
      · cases found
    · exact ⟨ran _ calm, nofun⟩

theorem record_sound {mounted : World × Except MountError (CString × Bool)}
    (sound : Sound watched world) (faithful : script.Faithful dev) (clear : Clear script world)
    (calm : Calm script.strangers world mounted.1)
    (plain : ∀ mnt created, mounted.2 = .ok (mnt, created) → PlainText mnt) :
    Sound watched (mountNative.record script dev mounted).1 := by
  unfold mountNative.record
  split
  · exact sound.calm calm clear.strangers
  · rename_i after mnt created
    have base : (newState script dev diskutilKind true mnt).Plain :=
      newState_plain faithful (plain mnt created rfl) ⟨.of_all (by decide), by decide, by decide⟩
    have flag : ∃ n : Nat, (if created = true then (1 : Int) else 0) = n := by
      split
      · exact ⟨1, rfl⟩
      · exact ⟨0, rfl⟩
    refine (sound.calm calm clear.strangers).write { base with createdDir := flag } faithful.write ?_
    intro nfs
    exact absurd nfs (by decide : diskutilKind ≠ nfsKind)

theorem mountNative_sound (sound : Sound watched world) (faithful : script.Faithful dev)
    (clear : Clear script world)
    (labelled : label ≠ [] ∧ ∀ char ∈ label, 32 ≤ char.toNat) :
    Sound watched (mountNative script dev isDev label world).1 := by
  unfold mountNative
  dsimp only
  split
  · split
    · split
      · exact sound
      · have freed : Calm script.strangers world (unmountExistingOsMount script.native.unmount world
            (mountNode script.paths dev isDev)) :=
          calm_unmountExistingOsMount fun stranger inside => by simp [MountScript.strangers, inside]
        obtain ⟨calm, plain⟩ := diskutilMount_spec faithful
        exact record_sound sound faithful clear (freed.trans calm) plain
    · obtain ⟨calm, plain⟩ := diskutilMount_spec faithful
      exact record_sound sound faithful clear calm plain
  · split
    · exact sound
    · rename_i mntDir made
      have ran : Calm script.strangers world (world.ran script.native.attach) :=
        calm_ran fun stranger inside => by simp [MountScript.strangers, inside]
      split
      · exact sound.calm ran clear.strangers
      · have base : (newState script dev hdiutilKind isDev mntDir).Plain :=
          newState_plain faithful (makeUniqueMountDir_plain faithful.place labelled.1 labelled.2 made)
            ⟨.of_all (by decide), by decide, by decide⟩
        have disk := attachedDisk_plain script.native.attach.out
        refine (sound.calm ran clear.strangers).write { base with attachedDisk := disk } faithful.write ?_
        intro nfs
        exact absurd nfs (by decide : hdiutilKind ≠ nfsKind)

theorem probed_sound {hint : CString} (sound : Sound watched world) (faithful : script.Faithful dev)
    (followed : watched → script.Watched) (clear : Clear script world) :
    Sound watched (mountFresh.probed script dev isDev hint world).1 := by
  have calm : Calm script.strangers world (detectFsMagicAndLabel script.probe world
      (canonDevice script.paths dev isDev) isDev hint).1 :=
    calm_detectFsMagicAndLabel fun stranger inside => by simp [MountScript.strangers, inside]
  unfold mountFresh.probed
  split <;> rename_i detected
  · rw [detected] at calm
    exact sound.calm calm clear.strangers
  · have labelled := detectFsMagicAndLabel_label (congrArg Prod.snd detected)
    rw [detected] at calm
    exact mountNative_sound (sound.calm calm clear.strangers) faithful (clear.fewer calm.states) labelled
  · have labelled := detectFsMagicAndLabel_label (congrArg Prod.snd detected)
    rw [detected] at calm
    exact mountThroughDaemon_sound (sound.calm calm clear.strangers) faithful followed
      (clear.fewer calm.states) labelled

theorem mountFresh_sound (sound : Sound watched world) (faithful : script.Faithful dev)
    (followed : watched → script.Watched) (clear : Clear script world) :
    Sound watched (mountFresh script dev isDev world).1 := by
  unfold mountFresh
  dsimp only
  split
  · exact probed_sound sound faithful followed clear
  · split
    · exact sound
    · have calm : Calm script.strangers world (unmountExistingOsMount script.osUnmount world
          (mountNode script.paths dev isDev)) :=
        calm_unmountExistingOsMount fun stranger inside => by simp [MountScript.strangers, inside]
      exact probed_sound (sound.calm calm clear.strangers) faithful followed
        (clear.fewer calm.states)

theorem mountThroughDaemon_new {st : MountState} :
    (mountThroughDaemon script dev isDev label world).2 ≠ .ok (.recorded st) := by
  unfold mountThroughDaemon
  dsimp only
  repeat' split
  all_goals nofun

theorem mountNative_new {st : MountState} :
    (mountNative script dev isDev label world).2 ≠ .ok (.recorded st) := by
  unfold mountNative mountNative.record
  dsimp only
  repeat' split
  all_goals nofun

/-- Past the loop, no answer comes from a state file. -/
theorem mountFresh_new {st : MountState} :
    (mountFresh script dev isDev world).2 ≠ .ok (.recorded st) := by
  have probed : ∀ hint world, (mountFresh.probed script dev isDev hint world).2 ≠
      .ok (.recorded st) := by
    intro hint world
    unfold mountFresh.probed
    split
    · nofun
    · exact mountNative_new
    · exact mountThroughDaemon_new
  unfold mountFresh
  dsimp only
  split
  · exact probed _ _
  · split
    · nofun
    · exact probed _ _

/-- What a mount command leaves, and what an answer from a state file says. -/
theorem rufuxMount_spec {dryRun : Bool} (sound : Sound watched world) (faithful : script.Faithful dev)
    (followed : watched → script.Watched)
    (notRecycled : NotRecycled world (.mount dev dryRun script)) :
    Sound watched (rufuxMount script dev dryRun world).1 ∧
      (watched → Careful world (.mount dev dryRun script)) := by
  have clear : Clear script world := ⟨notRecycled.1, notRecycled.2.1, notRecycled.2.2⟩
  have inRounds : ∀ round ∈ script.rounds, ∀ stranger ∈ round.strangers,
      stranger ∈ script.strangers := by
    intro round among stranger inside
    have there : stranger ∈ script.rounds.flatMap Round.strangers :=
      List.mem_flatMap.mpr ⟨round, among, inside⟩
    unfold MountScript.strangers
    simp [there]
  unfold Careful
  dsimp only
  unfold rufuxMount
  dsimp only
  split
  · exact ⟨sound, fun _ => nofun⟩
  · split
    · exact ⟨sound, fun _ => nofun⟩
    · split
      · exact ⟨sound, fun _ => nofun⟩
      · split
        · exact ⟨sound, fun _ => nofun⟩
        · exact ⟨sound, fun _ => nofun⟩
        · rename_i kind _ _
          split
          · exact ⟨sound, fun _ => nofun⟩
          · obtain ⟨kept, fewer, answers⟩ := cleanup_spec (canonDevice script.paths dev (isDevice kind)) dev
              sound (fun on => (followed on).lists) clear.strangers inRounds
            split <;> rename_i ended <;> rw [ended] at kept fewer answers
            · exact ⟨kept, fun _ => nofun⟩
            · refine ⟨kept, ?_⟩
              intro on st same nfs
              cases same
              obtain ⟨there, daemon, running, started, covers⟩ := answers _ rfl nfs
              exact ⟨there, daemon, running, started, covers on⟩
            · exact ⟨kept, fun _ => nofun⟩
            · refine ⟨mountFresh_sound kept faithful followed (clear.fewer fewer), ?_⟩
              intro _ st same
              exact absurd (Option.some.inj same) mountFresh_new

end Mounting

/-! ### Unmounting -/

section Unmounting

variable {watched : Prop} {world : World} {script : UnmountScript} {dev : CString} {st : MountState}
  {file : UInt64 × CString}

theorem calm_unmountExport :
    Calm script.strangers world (unmountExport script world st).1 := by
  have first : ∀ world, Calm script.strangers world (world.ran script.umount) := fun world =>
    calm_ran fun stranger inside => by simp [UnmountScript.strangers, inside]
  have second : ∀ world, Calm script.strangers world (world.ran script.diskutil) := fun world =>
    calm_ran fun stranger inside => by simp [UnmountScript.strangers, inside]
  have third : ∀ world, Calm script.strangers world (world.ran script.force) := fun world =>
    calm_ran fun stranger inside => by simp [UnmountScript.strangers, inside]
  unfold unmountExport
  dsimp only
  split
  · exact .refl world
  · split
    · exact first world
    · split
      · exact (first world).trans (second _)
      · split <;> exact ((first world).trans (second _)).trans (third _)

theorem mem_ran {answer : Answer} {daemon : Daemon} (inside : daemon ∈ world.daemons) :
    daemon ∈ (world.ran answer).daemons ∨ daemon.pid ∈ answer.crashed := by
  by_cases crashed : daemon.pid ∈ answer.crashed
  · exact Or.inr crashed
  · refine Or.inl (List.mem_filter.mpr ⟨inside, ?_⟩)
    simpa using crashed

/-- The attempts to unmount touch no state file and end no daemon. -/
theorem unmountExport_leftAlone : LeftAlone world (unmountExport script world st).1
    (script.umount.crashed ++ script.diskutil.crashed ++ script.force.crashed) := by
  have first (daemon : Daemon) (inside : daemon ∈ world.daemons) :
      daemon ∈ (world.ran script.umount).daemons ∨ daemon.pid ∈
        script.umount.crashed ++ script.diskutil.crashed ++ script.force.crashed :=
    (mem_ran inside).imp_right fun crashed => by simp [crashed]
  have second (daemon : Daemon) (inside : daemon ∈ world.daemons) :
      daemon ∈ ((world.ran script.umount).ran script.diskutil).daemons ∨ daemon.pid ∈
        script.umount.crashed ++ script.diskutil.crashed ++ script.force.crashed := by
    rcases first daemon inside with running | crashed
    · exact (mem_ran running).imp_right fun crashed => by simp [crashed]
    · exact Or.inr crashed
  have third (daemon : Daemon) (inside : daemon ∈ world.daemons) :
      daemon ∈ (((world.ran script.umount).ran script.diskutil).ran script.force).daemons ∨
        daemon.pid ∈ script.umount.crashed ++ script.diskutil.crashed ++ script.force.crashed := by
    rcases second daemon inside with running | crashed
    · exact (mem_ran running).imp_right fun crashed => by simp [crashed]
    · exact Or.inr crashed
  unfold unmountExport
  dsimp only
  split
  · exact ⟨rfl, rfl, fun _ inside => Or.inl inside⟩
  · split
    · exact ⟨rfl, rfl, first⟩
    · split
      · exact ⟨rfl, rfl, second⟩
      · split <;> exact ⟨rfl, rfl, third⟩

theorem unmountNfs_sound (sound : Sound watched world) (inside : file ∈ world.states)
    (read : readMountStateFile file.1 file.2 = some st) (nfs : st.kind = nfsKind)
    (lists : watched → script.lookLast.lists = true) (avoids : Avoids world script.strangers) :
    Sound watched (unmountNfs script world st).1 := by
  have calm : Calm script.strangers world (unmountExport script world st).1 := calm_unmountExport
  have states : (unmountExport script world st).1.states = world.states :=
    unmountExport_leftAlone.states
  unfold unmountNfs
  split
  · rename_i tried
    rw [tried] at calm
    exact sound.calm calm avoids
  · rename_i after tried
    rw [tried] at calm states
    have freed : Sound watched after := sound.calm calm avoids
    split
    · exact freed
    · rename_i gone
      have there : file ∈ after.states := states ▸ inside
      have recorded := freed.states file there st read nfs
      have ended : Sound watched (terminateAndWaitPid after (some st) st.pid script.ending) :=
        freed.terminate (recorded.mayEnd lists gone) (avoids.calm calm)
          (fun stranger inside => by simp [UnmountScript.strangers, inside])
          fun _ => ⟨file, there, st, read, nfs, rfl⟩
      have calmLast : Calm [] (terminateAndWaitPid after (some st) st.pid script.ending)
          ((terminateAndWaitPid after (some st) st.pid script.ending).unlinkState st.stateFile
            script.unlinks) := calm_unlinkState
      dsimp only
      split
      · exact ended
      · exact ended.calm calmLast fun _ _ _ => nofun

theorem unmountNfs_stillActive {found : MountState} {out : CString}
    (failed : (unmountNfs script world st).2 = .error (.stillActive found out)) :
    found = st ∧ LeftAlone world (unmountNfs script world st).1
      (script.umount.crashed ++ script.diskutil.crashed ++ script.force.crashed) := by
  have left : LeftAlone world (unmountExport script world st).1
    (script.umount.crashed ++ script.diskutil.crashed ++ script.force.crashed) :=
    unmountExport_leftAlone
  unfold unmountNfs at failed ⊢
  split at failed <;> rename_i tried <;> rw [tried] at left
  · cases failed
    exact ⟨rfl, left⟩
  · dsimp only at failed ⊢
    split at failed
    · rename_i active
      cases failed
      rw [if_pos active]
      exact ⟨rfl, left⟩
    · split at failed <;> cases failed

theorem calm_unmountByTool {plain force : Answer} {failure : CString → UnmountError}
    (inPlain : ∀ stranger ∈ plain.strangers, stranger ∈ script.strangers)
    (inForce : ∀ stranger ∈ force.strangers, stranger ∈ script.strangers) :
    Calm script.strangers world (unmountByTool script plain force failure world st).1 := by
  unfold unmountByTool
  dsimp only
  split
  · exact (calm_ran inPlain).trans calm_unlinkState
  · split
    · exact ((calm_ran inPlain).trans (calm_ran inForce)).trans calm_unlinkState
    · exact (calm_ran inPlain).trans (calm_ran inForce)

theorem calm_unmountUntracked :
    Calm script.strangers world (unmountUntracked script dev world).1 := by
  have node : ∀ world, Calm script.strangers world (world.ran script.unmountNode) := fun world =>
    calm_ran fun stranger inside => by simp [UnmountScript.strangers, inside]
  have path : ∀ world, Calm script.strangers world (world.ran script.unmountPath) := fun world =>
    calm_ran fun stranger inside => by simp [UnmountScript.strangers, inside]
  unfold unmountUntracked
  dsimp only
  generalize namesWholeDisk script.find.realpath (blockNode dev) = whole
  have first : Calm script.strangers world
      (if whole = true then world.ran script.unmountDisk else world) := by
    split
    · exact calm_ran fun stranger inside => by simp [UnmountScript.strangers, inside]
    · exact .refl world
  generalize (if whole = true then world.ran script.unmountDisk else world) = after at first ⊢
  split
  · exact first
  · split
    · exact first.trans (node _)
    · split <;> exact (first.trans (node _)).trans (path _)

theorem unmountByTool_other {plain force : Answer} {failure : CString → UnmountError}
    {out : CString} (other : ∀ text, failure text ≠ .stillActive st out) {entry : MountState} :
    (unmountByTool script plain force failure world entry).2 ≠ .error (.stillActive st out) := by
  unfold unmountByTool
  dsimp only
  split
  · nofun
  · split
    · nofun
    · intro same
      exact other _ (Except.error.inj same)

theorem unmountUntracked_other {out : CString} :
    (unmountUntracked script dev world).2 ≠ .error (.stillActive st out) := by
  unfold unmountUntracked
  dsimp only
  repeat' split
  all_goals nofun

/-- What an unmount command leaves, and what it leaves alone when the mount point stays. -/
theorem rufuxUnmount_spec {dryRun : Bool} (sound : Sound watched world)
    (lists : watched → script.lookLast.lists = true)
    (notRecycled : NotRecycled world (.unmount dev dryRun script)) :
    Sound watched (rufuxUnmount script dev dryRun world).1 ∧
      Careful world (.unmount dev dryRun script) := by
  have avoids : Avoids world script.strangers := notRecycled
  have byTool : ∀ plain force failure st,
      (∀ stranger ∈ plain.strangers, stranger ∈ script.strangers) →
      (∀ stranger ∈ force.strangers, stranger ∈ script.strangers) →
      Sound watched (unmountByTool script plain force failure world st).1 :=
    fun plain force failure st inPlain inForce =>
      sound.calm (calm_unmountByTool inPlain inForce) avoids
  unfold Careful
  dsimp only
  unfold rufuxUnmount
  split
  · exact ⟨sound, nofun⟩
  · split
    · exact ⟨sound, nofun⟩
    · split
      · exact ⟨sound, nofun⟩
      · split
        · refine ⟨sound.calm calm_unmountUntracked avoids, ?_⟩
          intro st out failed
          exact absurd failed unmountUntracked_other
        · rename_i st found
          obtain ⟨file, inside, read⟩ := findMatchingState_mem found
          split
          · rename_i nfs
            refine ⟨unmountNfs_sound sound inside read nfs lists avoids, ?_⟩
            intro _ out failed
            obtain ⟨rfl, left⟩ := unmountNfs_stillActive failed
            exact ⟨left, by rw [left.states, found]⟩
          · dsimp only
            split
            · refine ⟨byTool _ _ _ _ ?_ ?_, ?_⟩
              · exact fun stranger inside => by simp [UnmountScript.strangers, inside]
              · exact fun stranger inside => by simp [UnmountScript.strangers, inside]
              · intro _ out failed
                refine absurd failed (unmountByTool_other ?_)
                intro text
                nofun
            · refine ⟨byTool _ _ _ _ ?_ ?_, ?_⟩
              · exact fun stranger inside => by simp [UnmountScript.strangers, inside]
              · exact fun stranger inside => by simp [UnmountScript.strangers, inside]
              · intro _ out failed
                refine absurd failed (unmountByTool_other ?_)
                intro text
                nofun

end Unmounting

end Rufux.Macos
