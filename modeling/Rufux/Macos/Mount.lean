import Rufux.Macos.MountState

/-!
The mount and unmount commands of the macOS front end, over the state files, the kernel's
mount table and the running `rufux-mountd` processes. A command is one process; what the
system and the tools answer it is a script.
-/

namespace Rufux.Macos

open Library

/-- An entry of the mount table, as `struct statfs` has it. -/
structure Mount where
  on : CString
  source : CString
  rdonly : Bool
  vfs : CString
deriving DecidableEq

/-- A running `rufux-mountd`. It has the exclusive lock of a file as long as it runs. -/
structure Daemon where
  pid : Int
  device : CString
  /-- The file that the device's path led to. -/
  file : Nat
  /-- Where its export was mounted. -/
  on : Option CString
deriving DecidableEq

/-- A process that is no daemon of this program. -/
structure Stranger where
  pid : Int
  /-- The user may send it signals. -/
  signalable : Bool
deriving DecidableEq

inductive Receiver where
  | daemon (daemon : Daemon)
  | stranger (pid : Int)
deriving DecidableEq

/-- A `SIGTERM` or `SIGKILL` that a process got. -/
structure Signal where
  /-- The state that named the process, none for a daemon that was just started. -/
  state : Option MountState
  receiver : Receiver
  /-- The mount table of that moment. -/
  mounts : List Mount

structure World where
  states : StateDir
  mounts : List Mount
  daemons : List Daemon
  strangers : List Stranger
  /-- The signals so far, the last one first. -/
  signals : List Signal

/-- Other processes come and go. A process id belongs to one process at a time. -/
def World.met (world : World) (strangers : List Stranger) : World :=
  { world with
    strangers := strangers.filter fun stranger => !world.daemons.any (·.pid == stranger.pid) }

/-- What a tool answers, and what it leaves: the mount table, the daemons that crash
meanwhile, and the other processes. -/
structure Answer where
  zero : Bool
  out : CString
  mounts : List Mount
  crashed : List Int
  strangers : List Stranger

def World.ran (world : World) (answer : Answer) : World :=
  { world with
    mounts := answer.mounts
    daemons := world.daemons.filter fun daemon => !answer.crashed.contains daemon.pid }.met
      answer.strangers

section Table

variable (sight : Sight) (mounts : List Mount)

def findActiveMountForDev (devPath : CString) : Option Mount :=
  if sight.lists then
    match parseBsdIdent sight.realpath devPath with
    | some target => mounts.find? fun mount => parseBsdIdent sight.realpath mount.source = some target
    | none => mounts.find? fun mount => mount.source = devPath
  else none

/-- The names under which a mount point is looked for. -/
def mountNames (mnt canonMnt : CString) : List CString :=
  let rawM := stripTrailingSlashes mnt
  let resM := if mnt = [] then [] else ((sight.realpath rawM).map stripTrailingSlashes).getD []
  [rawM, stripTrailingSlashes canonMnt, resM].filter (· ≠ [])

def isMountpointActive (mnt canonMnt : CString) : Bool :=
  if mnt = [] ∧ canonMnt = [] then false
  else
    sight.lists && mounts.any fun mount =>
      let on := stripTrailingSlashes mount.on
      (mountNames sight mnt canonMnt).contains on ||
        match sight.realpath on with
        | none => false
        | some resolved => (mountNames sight mnt canonMnt).contains (stripTrailingSlashes resolved)

end Table

/-- What `unmount_existing_os_mount` meets. -/
structure OsUnmount where
  before : Sight
  diskutil : Answer
  between : Sight
  umount : Answer

def unmountExistingOsMount (script : OsUnmount) (world : World) (bnode : CString) : World :=
  match findActiveMountForDev script.before world.mounts bnode with
  | none => world
  | some _ =>
      let world := world.ran script.diskutil
      match findActiveMountForDev script.between world.mounts bnode with
      | none => world
      | some _ => world.ran script.umount

def World.runs (world : World) (pid : Int) : Bool :=
  world.daemons.any (·.pid == pid) || world.strangers.any (·.pid == pid)

def pidIsAlive (world : World) (pid : Int) : Bool := decide (1 < pid) && world.runs pid

def World.receivers (world : World) (pid : Int) : List Receiver :=
  (world.daemons.filter (·.pid == pid)).map .daemon ++
    (world.strangers.filter fun stranger => stranger.pid == pid && stranger.signalable).map
      fun stranger => .stranger stranger.pid

def World.signal (world : World) (state : Option MountState) (pid : Int) : World :=
  { world with
    signals := (world.receivers pid).map (⟨state, ·, world.mounts⟩) ++ world.signals }

def World.without (world : World) (pid : Int) : World :=
  { world with
    daemons := world.daemons.filter (·.pid != pid)
    strangers := world.strangers.filter (·.pid != pid) }

/-- How a process takes the signals: it exits in time, other processes come meanwhile, and
what has the id at the end is gone after the last signal. -/
structure Ending where
  exits : Bool
  strangers : List Stranger
  dies : Bool

/-- `terminate_and_wait_pid`. A daemon that the command has just started is its child, so its
exit is seen by `waitpid`; of another process only its id is seen to be free. -/
def terminateAndWaitPid (world : World) (state : Option MountState) (pid : Int)
    (ending : Ending) : World :=
  if pid ≤ 1 ∨ world.runs pid = false then world
  else
    let warned := world.signal state pid
    if ending.exits ∧ state = none then warned.without pid
    else
      let waited := (if ending.exits then warned.without pid else warned).met ending.strangers
      if waited.runs pid = false then waited
      else
        let killed := waited.signal state pid
        if ending.dies then killed.without pid else killed

def World.unlinkState (world : World) (stateFile : UInt64) (works : Bool) : World :=
  if works then { world with states := world.states.filter (·.1 != stateFile) } else world

/-- What becomes of the text that is printed to the state file. -/
inductive StateWrite where
  | refused
  | cut (length : Nat) (slot : Nat)
  | whole (slot : Nat)

def StateDir.put (states : StateDir) (slot : Nat) (id : UInt64) (text : CString) : StateDir :=
  if states.any (·.1 == id) then states.map fun file => if file.1 = id then (id, text) else file
  else states.take slot ++ (id, text) :: states.drop slot

def writeMountState (write : StateWrite) (world : World) (st : MountState) : World :=
  match write with
  | .refused => world
  | .cut length slot =>
      { world with states := world.states.put slot st.id (st.text.take length) }
  | .whole slot => { world with states := world.states.put slot st.id st.text }

/-! ### Labels and mount directories -/

def safeChar (char : Char) : Char := if char = '/' ∨ char.toNat < 32 then '_' else char

/-- A name up to a final `.img`. -/
def beforeImg : CString → CString
  | [] => []
  | char :: rest => if char :: rest = ".img".toList then [] else char :: beforeImg rest

def sanitizeLabel (raw fallbackPath : CString) : CString :=
  let edge (char : Char) : Bool := char = ' ' ∨ char = '.'
  let tmp := (raw.take 127).map fun char => if char = '\\' ∨ char = ':' then '_' else safeChar char
  let label := (tmp.rdropWhile edge).dropWhile edge
  if label ≠ [] then label
  else
    let base := (fallbackPath.reverse.takeWhile (· ≠ '/')).reverse
    let name := ((beforeImg base).take 127).map safeChar
    if name ≠ [] then name else "rufux-vol".toList

inductive FsKind where
  | ntfs
  | ext
  | native
deriving DecidableEq

/-- What the probe of the file system meets. -/
structure Probe where
  opens : Bool
  busy : Bool
  unmount : OsUnmount
  reopens : Bool
  /-- The bytes at the start of the device, at most 4096. -/
  head : List UInt8
  volName : Option CString

def detectFsMagicAndLabel (probe : Probe) (world : World) (bnode : CString) (isDev : Bool)
    (hint : CString) : World × Option (FsKind × CString) :=
  let retried := !probe.opens && isDev && probe.busy
  let world := if retried then unmountExistingOsMount probe.unmount world bnode else world
  let opened := probe.opens || (retried && probe.reopens)
  if !opened || probe.head.length < 512 then (world, none)
  else if (probe.head.drop 3).take 8 = "NTFS    ".toList.map fun char => UInt8.ofNat char.toNat then
    let raw := if hint ≠ [] then hint else probe.volName.getD []
    (world, some (.ntfs, sanitizeLabel raw bnode))
  else if 1160 ≤ probe.head.length ∧ (probe.head.drop 1080).take 2 = [0x53, 0xEF] then
    let raw := (((probe.head.drop 1144).take 16).takeWhile (· ≠ 0)).map fun byte =>
      Char.ofNat byte.toNat
    (world, some (.ext, sanitizeLabel raw bnode))
  else (world, some (.native, sanitizeLabel hint bnode))

inductive Mkdir where
  | made
  | there
  | refused
deriving DecidableEq

/-- Where mount directories are made. -/
structure Place where
  /-- `RUFUX_MOUNT_ROOT`, where it is set. -/
  envRoot : Option CString
  /-- `/Volumes` is writable. -/
  volumes : Bool
  mkdir : CString → Mkdir

def Place.base (place : Place) (label : CString) : CString :=
  match place.envRoot with
  | some root => root ++ '/' :: label
  | none => (if place.volumes then "/Volumes/" else "/tmp/rufux-mnt-").toList ++ label

/-- The rest of the loop of `make_unique_mount_dir`, with so many suffixes left. -/
def tryMountDirs (mkdir : CString → Mkdir) (base : CString) : Nat → Nat → Option CString
  | 0, _ => none
  | left + 1, suffix =>
      let name := if suffix = 0 then base else base ++ '-' :: decimal suffix
      if 1024 ≤ name.length then none
      else
        match mkdir name with
        | .made => some name
        | .refused => none
        | .there => tryMountDirs mkdir base left (suffix + 1)

def makeUniqueMountDir (place : Place) (label : CString) : Option CString :=
  tryMountDirs place.mkdir (place.base label) 1000 0

/-! ### Starting a daemon -/

/-- What becomes of a daemon that has got the lock of its device. -/
inductive Start where
  | exits
  | stuck
  | ready
deriving DecidableEq

/-- What `mount_nfs` answers, and where it mounts when it is given a directory. -/
structure NfsAnswer where
  answer : Answer
  on : CString → Option CString

structure Launch where
  /-- The pipes and the process are made. -/
  forks : Bool
  pid : Int
  file : Nat
  start : Start
  unstarted : Ending
  first : NfsAnswer
  second : NfsAnswer
  unmounted : Ending

inductive LaunchError where
  | fork
  | start
  | mountNfs (out : CString)

/-- The id of a new process is one that no process has. -/
def World.fork (world : World) (launch : Launch) : Option Int :=
  if launch.forks ∧ 1 < launch.pid ∧ world.runs launch.pid = false then some launch.pid else none

/-- A new daemon, and whether it reports its port. One that does not get the lock exits. -/
def World.started (world : World) (launch : Launch) (pid : Int) (canonDev : CString) :
    World × Bool :=
  if world.daemons.any (·.file == launch.file) then (world, false)
  else
    let running := { world with daemons := ⟨pid, canonDev, launch.file, none⟩ :: world.daemons }
    match launch.start with
    | .exits => (world, false)
    | .stuck => (running, false)
    | .ready => (running, true)

/-- The id of a child stays taken until the child is waited for. -/
def World.mountNfs (world : World) (pid : Int) (mntDir : CString) (nfs : NfsAnswer) : World :=
  let world := world.ran nfs.answer
  { world with
    strangers := world.strangers.filter (·.pid != pid)
    daemons := world.daemons.map fun daemon =>
      if daemon.pid = pid then { daemon with on := (nfs.on mntDir).or daemon.on } else daemon }

def launchMountdAndMountNfs (launch : Launch) (world : World) (canonDev mntDir : CString) :
    World × Except LaunchError Int :=
  match world.fork launch with
  | none => (world, .error .fork)
  | some pid =>
      let started := world.started launch pid canonDev
      if !started.2 then
        (terminateAndWaitPid started.1 none pid launch.unstarted, .error .start)
      else
        let tried := started.1.mountNfs pid mntDir launch.first
        if launch.first.answer.zero then (tried, .ok pid)
        else
          let retried := tried.mountNfs pid mntDir launch.second
          if launch.second.answer.zero then (retried, .ok pid)
          else
            (terminateAndWaitPid retried none pid launch.unmounted,
              .error (.mountNfs launch.second.answer.out))

/-! ### `rufux_mount` -/

inductive MountError where
  | emptyPath
  | bootDisk (dev : CString)
  | missing (dev why : CString)
  | notMountable (dev : CString)
  | noStateDir (dir : CString)
  | stale (st : MountState)
  | undead (st : MountState)
  | probe (canonDev : CString)
  | noMountd
  | noMountDir (name : CString)
  | launch (canonDev mntDir : CString) (why : LaunchError)
  | diskutil (bnode out : CString)
  | hdiutil (canonDev out : CString)

inductive MountAnswer where
  | dryRun
  /-- From an existing state file. -/
  | recorded (st : MountState)
  /-- The system has mounted it already. -/
  | present (mnt : CString)
  | mounted (mnt : CString)

/-- What one round over an existing state file meets. -/
structure Round where
  find : Sight
  findDev : Sight
  look : Sight
  umount : Answer
  lookAgain : Sight
  ending : Ending
  detach : Answer
  unlinks : Bool

inductive RoundEnd where
  | answers (st : MountState)
  | fails (why : MountError)
  | again
  | leaves

def nfsKind : CString := "nfs".toList
def hdiutilKind : CString := "hdiutil".toList
def diskutilKind : CString := "diskutil".toList

def forgetState (round : Round) (world : World) (existing : MountState) : World × RoundEnd :=
  (world.unlinkState existing.stateFile round.unlinks, if round.unlinks then .again else .leaves)

/-- The body of the loop over the existing state files. -/
def mountRound (round : Round) (world : World) (existing : MountState) : World × RoundEnd :=
  let mounted := isMountpointActive round.look world.mounts existing.mnt existing.canonMnt
  if existing.kind = nfsKind then
    if mounted && pidIsAlive world existing.pid then (world, .answers existing)
    else
      let freed := if mounted then world.ran round.umount else world
      if isMountpointActive round.lookAgain freed.mounts existing.mnt existing.canonMnt then
        (freed, .fails (.stale existing))
      else
        let ended := terminateAndWaitPid freed (some existing) existing.pid round.ending
        if pidIsAlive ended existing.pid then
          (ended, .fails (.undead existing))
        else forgetState round ended existing
  else if mounted then (world, .answers existing)
  else if existing.kind = hdiutilKind ∧ existing.attachedDisk ≠ [] then
    forgetState round (world.ran round.detach) existing
  else forgetState round world existing

inductive CleanupEnd where
  | running
  | answered (st : MountState)
  | failed (why : MountError)
  | clear

def cleanup (canonDev dev : CString) : List Round → World → World × CleanupEnd
  | [], world => (world, .running)
  | round :: rounds, world =>
      match (findMatchingState round.find world.states canonDev).or
          (findMatchingState round.findDev world.states dev) with
      | none => (world, .clear)
      | some existing =>
          match mountRound round world existing with
          | (world, .answers st) => (world, .answered st)
          | (world, .fails why) => (world, .failed why)
          | (world, .leaves) => (world, .clear)
          | (world, .again) => cleanup canonDev dev rounds world

/-- What the branch for the system's own file systems meets. -/
structure Native where
  sight : Sight
  unmount : OsUnmount
  mountAt : Answer
  sightAt : Sight
  mount : Answer
  sightLast : Sight
  attach : Answer

/-- What the names of the file system lead to. -/
structure Paths where
  realpath : CString → Option CString
  stat : CString → Except CString FileKind

def isDevice : FileKind → Bool
  | .device _ => true
  | _ => false

section Paths

variable (paths : Paths) (dev : CString) (isDev : Bool)

/-- The device to mount: of a whole disk, its first slice where there is one. -/
def mountNode : CString :=
  let bnode := blockNode dev
  let part1 := rufuxPart1 bnode
  let sliced := match paths.stat part1 with
    | .ok kind => isDevice kind
    | .error _ => false
  if isDev ∧ namesWholeDisk paths.realpath bnode = true ∧ part1 ≠ [] ∧ sliced = true then part1
  else bnode

def canonDevice : CString :=
  let bnode := mountNode paths dev isDev
  (paths.realpath bnode).getD bnode

end Paths

structure MountScript where
  isBootDisk : CString → Bool
  paths : Paths
  stateDir : CString
  makesStateDir : Bool
  rounds : List Round
  osSight : Sight
  osUnmount : OsUnmount
  probe : Probe
  mountdFound : Bool
  osUnmountAgain : OsUnmount
  place : Place
  launch : Launch
  osUnmountLast : OsUnmount
  relaunch : Launch
  /-- `realpath` of the mount directory, once something is mounted there. -/
  resolveMnt : CString → Option CString
  write : StateWrite
  native : Native

section Mounting

variable (script : MountScript) (dev : CString)

/-- A state as it is written. -/
def newState (kind : CString) (isDev : Bool) (mntDir : CString) : MountState :=
  { MountState.blank 0 with
    kind
    dev
    canonDev := canonDevice script.paths dev isDev
    mnt := mntDir
    canonMnt := (script.resolveMnt mntDir).getD mntDir
    createdDir := 1 }

def nfsState (isDev : Bool) (mntDir : CString) (pid : Int) : MountState :=
  { newState script dev nfsKind isDev mntDir with
    pid
    pidfile := script.stateDir ++ '/' :: hex16 (stateId (canonDevice script.paths dev isDev) mntDir) ++
      ".pid".toList }

/-- The first token of the output that starts with `/dev/disk`. -/
def attachedDisk (out : CString) : CString :=
  match out.tails.find? fun tail => "/dev/disk".toList.isPrefixOf tail with
  | none => []
  | some found =>
      (found.takeWhile fun char => ¬(char = ' ' ∨ (9 ≤ char.toNat ∧ char.toNat ≤ 13))).take 127

/-- The branch of `rufux_mount` that serves the device through a daemon. -/
def mountThroughDaemon (isDev : Bool) (label : CString) (world : World) :
    World × Except MountError MountAnswer :=
  let bnode := mountNode script.paths dev isDev
  let canonDev := canonDevice script.paths dev isDev
  if !script.mountdFound then (world, .error .noMountd)
  else
    let free := if isDev then unmountExistingOsMount script.osUnmountAgain world bnode else world
    match makeUniqueMountDir script.place label with
    | none => (free, .error (.noMountDir label))
    | some mntDir =>
        match launchMountdAndMountNfs script.launch free canonDev mntDir with
        | (world, .ok pid) =>
            (writeMountState script.write world (nfsState script dev isDev mntDir pid),
              .ok (.mounted mntDir))
        | (world, .error why) =>
            if !isDev then (world, .error (.launch canonDev mntDir why))
            else
              let free := unmountExistingOsMount script.osUnmountLast world bnode
              match launchMountdAndMountNfs script.relaunch free canonDev mntDir with
              | (world, .ok pid) =>
                  (writeMountState script.write world (nfsState script dev isDev mntDir pid),
                    .ok (.mounted mntDir))
              | (world, .error why) => (world, .error (.launch canonDev mntDir why))

/-- The mount point after `diskutil mount -mountPoint`, at a directory under the root that
the environment names. -/
def diskutilMountAt (bnode label : CString) (world : World) : World × Option CString :=
  match script.place.envRoot, makeUniqueMountDir script.place label with
  | some _, some _ =>
      let ran := world.ran script.native.mountAt
      (ran, if script.native.mountAt.zero then
        (findActiveMountForDev script.native.sightAt ran.mounts bnode).map (·.on) else none)
  | _, _ => (world, none)

/-- The mount point that `diskutil mount` gives the device, and whether its directory was
made for it. -/
def diskutilMount (bnode label : CString) (world : World) :
    World × Except MountError (CString × Bool) :=
  match diskutilMountAt script bnode label world with
  | (world, some mnt) => (world, .ok (mnt, true))
  | (world, none) =>
      let ran := world.ran script.native.mount
      match if script.native.mount.zero then
        findActiveMountForDev script.native.sightLast ran.mounts bnode else none with
      | some mount => (ran, .ok (mount.on, false))
      | none => (ran, .error (.diskutil bnode script.native.mount.out))

/-- The branch of `rufux_mount` for the system's own file systems. -/
def mountNative (isDev : Bool) (label : CString) (world : World) :
    World × Except MountError MountAnswer :=
  let bnode := mountNode script.paths dev isDev
  let canonDev := canonDevice script.paths dev isDev
  let native := script.native
  if isDev then
    match findActiveMountForDev native.sight world.mounts bnode with
    | some mount =>
        if !mount.rdonly then (world, .ok (.present mount.on))
        else record (diskutilMount script bnode label
          (unmountExistingOsMount native.unmount world bnode))
    | none => record (diskutilMount script bnode label world)
  else
    match makeUniqueMountDir script.place label with
    | none => (world, .error (.noMountDir dev))
    | some mntDir =>
        let ran := world.ran native.attach
        if !native.attach.zero then (ran, .error (.hdiutil canonDev native.attach.out))
        else
          (writeMountState script.write ran
            { newState script dev hdiutilKind isDev mntDir with
              attachedDisk := attachedDisk native.attach.out },
            .ok (.mounted mntDir))
where
  record : World × Except MountError (CString × Bool) → World × Except MountError MountAnswer
    | (world, .error why) => (world, .error why)
    | (world, .ok (mnt, created)) =>
        (writeMountState script.write world
          { newState script dev diskutilKind true mnt with createdDir := if created then 1 else 0 },
          .ok (.mounted mnt))

/-- What follows the loop over the existing state files. -/
def mountFresh (isDev : Bool) (world : World) : World × Except MountError MountAnswer :=
  let bnode := mountNode script.paths dev isDev
  match if isDev then findActiveMountForDev script.osSight world.mounts bnode else none with
  | none => probed [] world
  | some mount =>
      if !mount.rdonly ∧ mount.vfs ≠ "ntfs".toList ∧ ¬"ext".toList.isPrefixOf mount.vfs then
        (world, .ok (.present mount.on))
      else
        let hint := if '/' ∈ mount.on then (mount.on.reverse.takeWhile (· ≠ '/')).reverse else []
        probed (hint.take 127) (unmountExistingOsMount script.osUnmount world bnode)
where
  probed (hint : CString) (world : World) : World × Except MountError MountAnswer :=
    match detectFsMagicAndLabel script.probe world (canonDevice script.paths dev isDev) isDev hint with
    | (world, none) => (world, .error (.probe (canonDevice script.paths dev isDev)))
    | (world, some (.native, label)) => mountNative script dev isDev label world
    | (world, some (_, label)) => mountThroughDaemon script dev isDev label world

/-- `rufux_mount`. No answer means that the script ends before the command does. -/
def rufuxMount (dryRun : Bool) (world : World) :
    World × Option (Except MountError MountAnswer) :=
  let bnode := blockNode dev
  if dev = [] then (world, some (.error .emptyPath))
  else if script.isBootDisk dev || script.isBootDisk bnode then
    (world, some (.error (.bootDisk dev)))
  else if dryRun then (world, some (.ok .dryRun))
  else
    match script.paths.stat bnode with
    | .error why => (world, some (.error (.missing dev why)))
    | .ok .other => (world, some (.error (.notMountable dev)))
    | .ok kind =>
        if !script.makesStateDir then (world, some (.error (.noStateDir script.stateDir)))
        else
          match cleanup (canonDevice script.paths dev (isDevice kind)) dev script.rounds world with
          | (world, .running) => (world, none)
          | (world, .answered st) => (world, some (.ok (.recorded st)))
          | (world, .failed why) => (world, some (.error why))
          | (world, .clear) =>
              ((mountFresh script dev (isDevice kind) world).1,
                some (mountFresh script dev (isDevice kind) world).2)

end Mounting

/-! ### `rufux_unmount` -/

inductive UnmountError where
  | emptyPath
  | bootDisk (dev : CString)
  | stillActive (st : MountState) (out : CString)
  | undead (st : MountState)
  | hdiutil (target out : CString)
  | diskutil (target out : CString)
  | untracked (dev out : CString)

structure UnmountScript where
  isBootDisk : CString → Bool
  find : Sight
  look : Sight
  umount : Answer
  lookSecond : Sight
  diskutil : Answer
  lookThird : Sight
  force : Answer
  lookFourth : Sight
  lookLast : Sight
  ending : Ending
  detach : Answer
  detachForce : Answer
  unmount : Answer
  unmountForce : Answer
  unlinks : Bool
  unmountDisk : Answer
  unmountNode : Answer
  unmountPath : Answer

section Unmounting

variable (script : UnmountScript)

/-- The three attempts to unmount an export. Some output is that of a failure. -/
def unmountExport (world : World) (st : MountState) : World × Option CString :=
  let active (sight : Sight) (world : World) : Bool :=
    isMountpointActive sight world.mounts st.mnt st.canonMnt
  if !active script.look world then (world, none)
  else
    let first := world.ran script.umount
    if script.umount.zero || !active script.lookSecond first then (first, none)
    else
      let second := first.ran script.diskutil
      if script.diskutil.zero || !active script.lookThird second then (second, none)
      else
        let third := second.ran script.force
        if script.force.zero || !active script.lookFourth third then (third, none)
        else (third, some script.force.out)

def unmountNfs (world : World) (st : MountState) : World × Except UnmountError Unit :=
  match unmountExport script world st with
  | (world, some out) => (world, .error (.stillActive st out))
  | (world, none) =>
      if isMountpointActive script.lookLast world.mounts st.mnt st.canonMnt then
        (world, .error (.stillActive st []))
      else
        let ended := terminateAndWaitPid world (some st) st.pid script.ending
        if pidIsAlive ended st.pid then (ended, .error (.undead st))
        else (ended.unlinkState st.stateFile script.unlinks, .ok ())

/-- A tool, and the same tool with force; the state file goes when one of them works. -/
def unmountByTool (plain force : Answer) (failure : CString → UnmountError) (world : World)
    (st : MountState) : World × Except UnmountError Unit :=
  let first := world.ran plain
  if plain.zero then (first.unlinkState st.stateFile script.unlinks, .ok ())
  else
    let second := first.ran force
    if force.zero then (second.unlinkState st.stateFile script.unlinks, .ok ())
    else (second, .error (failure force.out))

/-- What is done about a device or mount point without a state file. -/
def unmountUntracked (dev : CString) (world : World) : World × Except UnmountError Unit :=
  let bnode := blockNode dev
  let whole := namesWholeDisk script.find.realpath bnode
  let first := if whole then world.ran script.unmountDisk else world
  if whole && script.unmountDisk.zero then (first, .ok ())
  else
    let second := first.ran script.unmountNode
    if script.unmountNode.zero then (second, .ok ())
    else
      let third := second.ran script.unmountPath
      if script.unmountPath.zero then (third, .ok ())
      else (third, .error (.untracked dev script.unmountPath.out))

/-- `rufux_unmount`. -/
def rufuxUnmount (dev : CString) (dryRun : Bool) (world : World) :
    World × Except UnmountError Unit :=
  if dev = [] then (world, .error .emptyPath)
  else if dev = ['/'] ∨ script.isBootDisk dev = true then (world, .error (.bootDisk dev))
  else if dryRun then (world, .ok ())
  else
    match findMatchingState script.find world.states dev with
    | none => unmountUntracked script dev world
    | some st =>
        if st.kind = nfsKind then unmountNfs script world st
        else if st.kind = hdiutilKind then
          let target := if st.attachedDisk ≠ [] then st.attachedDisk else st.mnt
          unmountByTool script script.detach script.detachForce (.hdiutil target) world st
        else
          let target := if st.mnt ≠ [] then st.mnt else st.canonDev
          unmountByTool script script.unmount script.unmountForce (.diskutil target) world st

end Unmounting

/-! ### `rufux_unmount_all_for_disk` -/

structure DiskRound where
  find : Sight
  unmount : UnmountScript

/-- What a sweep over the states of a disk leaves, the states it has acted on, and what it
answers, unless its script ends before. -/
structure Swept where
  world : World
  acted : List MountState
  answer : Option (Except UnmountError Unit)

/-- The path that stands for the whole disk of a node. -/
def wholeTarget (realpath : CString → Option CString) (disk : CString) : CString :=
  let bnode := blockNode disk
  match parseBsdIdent realpath bnode with
  | none => bnode
  | some dbsd => "/dev/".toList ++ (dbsd.take 4 ++ (dbsd.drop 4).takeWhile (· ≠ 's'))

/-- What `rufux_unmount` is asked for on behalf of a state. -/
def MountState.target (ms : MountState) : CString :=
  if ms.canonDev ≠ [] then ms.canonDev else if ms.mnt ≠ [] then ms.mnt else ms.dev

/-- The loop, with so many guards left. -/
def sweep (target : CString) : Nat → List DiskRound → World → Swept
  | 0, _, world => ⟨world, [], some (.ok ())⟩
  | _ + 1, [], world => ⟨world, [], none⟩
  | guards + 1, round :: rounds, world =>
      match findMatchingState round.find world.states target with
      | none => ⟨world, [], some (.ok ())⟩
      | some ms =>
          let acted := ms :: (findMatchingState round.unmount.find world.states ms.target).toList
          let after := rufuxUnmount round.unmount ms.target false world
          match after.2 with
          | .error why => ⟨after.1, acted, some (.error why)⟩
          | .ok () =>
              let rest := sweep target guards rounds after.1
              ⟨rest.world, acted ++ rest.acted, rest.answer⟩

def rufuxUnmountAllForDisk (realpath : CString → Option CString) (makesStateDir : Bool)
    (rounds : List DiskRound) (disk : CString) (world : World) : Swept :=
  if disk = [] then ⟨world, [], some (.ok ())⟩
  else if !makesStateDir then ⟨world, [], some (.ok ())⟩
  else sweep (wholeTarget realpath disk) 32 rounds world

/-! ### Names that fit a line -/

section Names

variable {raw fallbackPath label name hint : CString} {char : Char}

theorem safeChar_printable (char : Char) : 32 ≤ (safeChar char).toNat := by
  unfold safeChar
  split
  · decide
  · rename_i safe
    rw [not_or] at safe
    omega

/-- A label is a name without control characters. -/
theorem sanitizeLabel_printable :
    sanitizeLabel raw fallbackPath ≠ [] ∧
      ∀ char ∈ sanitizeLabel raw fallbackPath, 32 ≤ char.toNat := by
  unfold sanitizeLabel
  dsimp only
  split
  · rename_i nonempty
    refine ⟨nonempty, ?_⟩
    intro char inside
    have kept := (List.rdropWhile_prefix _ _).subset ((List.dropWhile_suffix _).subset inside)
    obtain ⟨old, -, rfl⟩ := List.mem_map.mp kept
    split
    · decide
    · exact safeChar_printable old
  · split
    · rename_i nonempty
      refine ⟨nonempty, ?_⟩
      intro char inside
      obtain ⟨old, -, rfl⟩ := List.mem_map.mp inside
      exact safeChar_printable old
    · exact ⟨by decide, List.forall_iff_forall_mem.mp (by decide)⟩

theorem detectFsMagicAndLabel_label {probe : Probe} {world : World} {bnode : CString}
    {isDev : Bool} {kind : FsKind}
    (detected : (detectFsMagicAndLabel probe world bnode isDev hint).2 = some (kind, label)) :
    label ≠ [] ∧ ∀ char ∈ label, 32 ≤ char.toNat := by
  unfold detectFsMagicAndLabel at detected
  dsimp only at detected
  generalize (if (!probe.opens && isDev && probe.busy) = true then
    unmountExistingOsMount probe.unmount world bnode else world) = left at detected
  split at detected
  · cases detected
  · split at detected
    · cases detected
      exact sanitizeLabel_printable
    · split at detected <;> cases detected <;> exact sanitizeLabel_printable

theorem tryMountDirs_tail {mkdir : CString → Mkdir} {base : CString} {left suffix : Nat}
    (made : tryMountDirs mkdir base left suffix = some name) :
    ∃ tail, name = base ++ tail ∧ ∀ char ∈ tail, 32 ≤ char.toNat := by
  induction left generalizing suffix with
  | zero => cases made
  | succ left ih =>
      have tried : ∃ tail, (if suffix = 0 then base else base ++ '-' :: decimal suffix) =
          base ++ tail ∧ ∀ char ∈ tail, 32 ≤ char.toNat := by
        split
        · exact ⟨[], by simp⟩
        · refine ⟨'-' :: decimal suffix, rfl, ?_⟩
          intro char inside
          rcases List.mem_cons.mp inside with rfl | digit
          · decide
          · exact decimal_printable digit
      obtain ⟨tail, shape, printable⟩ := tried
      unfold tryMountDirs at made
      dsimp only at made
      rw [shape] at made
      split at made
      · cases made
      · split at made
        · cases made
          exact ⟨tail, rfl, printable⟩
        · cases made
        · exact ih made

/-- The directory that is made for a label fits a line where its root does. -/
theorem makeUniqueMountDir_plain {place : Place} (root : ∀ root ∈ place.envRoot, '\n' ∉ root)
    (nonempty : label ≠ []) (printable : ∀ char ∈ label, 32 ≤ char.toNat)
    (made : makeUniqueMountDir place label = some name) : PlainText name := by
  obtain ⟨tail, rfl, tailPrintable⟩ := tryMountDirs_tail made
  have all : ∀ char ∈ label ++ tail, 32 ≤ char.toNat := by
    intro char inside
    rcases List.mem_append.mp inside with first | second
    · exact printable char first
    · exact tailPrintable char second
  have some : label ++ tail ≠ [] := by simp [nonempty]
  unfold Place.base
  split
  · rename_i envRoot set
    have whole : envRoot ++ '/' :: label ++ tail = (envRoot ++ ['/']) ++ (label ++ tail) := by simp
    rw [whole]
    refine .append_printable ?_ all some
    simpa using root envRoot set
  · rw [List.append_assoc]
    refine .append_printable ?_ all some
    split <;> decide

theorem attachedDisk_plain (out : CString) :
    PlainText (attachedDisk out) ∧ (attachedDisk out).length ≤ 127 := by
  unfold attachedDisk
  split
  · exact ⟨plainText_nil, Nat.zero_le _⟩
  · rename_i found _
    have dark : ∀ char ∈ (found.takeWhile fun char =>
        decide ¬(char = ' ' ∨ (9 ≤ char.toNat ∧ char.toNat ≤ 13))).take 127,
        char ≠ '\n' ∧ char ≠ '\r' := by
      intro char inside
      have kept := List.mem_takeWhile_imp (List.mem_of_mem_take inside)
      constructor
      · rintro rfl
        exact absurd kept (by decide)
      · rintro rfl
        exact absurd kept (by decide)
    refine ⟨⟨?_, ?_⟩, List.length_take_le _ _⟩
    · intro newline
      exact (dark _ newline).1 rfl
    · intro ending
      exact (dark _ (List.mem_of_getLast? ending)).2 rfl

end Names

end Rufux.Macos
