import Rufux.Macos.MountLife

/-!
Which state files a mount answers from, and when these are the files
of the device that was asked for.
-/

namespace Rufux.Macos

open Library

/-! ### Matching -/

/-- The test that the search makes on a state. -/
def matchesTarget (realpath : CString → Option CString) (target : CString) (st : MountState) : Bool :=
  let rawT := stripTrailingSlashes target
  let blkT := stripTrailingSlashes (blockNode rawT)
  stateMatchesTarget realpath st rawT blkT
    (stripTrailingSlashes (((realpath blkT).or (realpath rawT)).getD []))

/-- A state file of the directory says so. -/
def Readable (states : StateDir) (st : MountState) : Prop :=
  ∃ file ∈ states, readMountStateFile file.1 file.2 = some st

/-- State files as mount commands write them, each under a name of its own. -/
structure WellKept (states : StateDir) : Prop where
  names : (states.map (·.1)).Nodup
  canonDev : ∀ st, Readable states st → st.canonDev ≠ [] ∧ st.canonDev ≠ ['/'] ∧
    stripTrailingSlashes st.canonDev = st.canonDev
  mnt : ∀ st, Readable states st → st.mnt ≠ []
  pid : ∀ st, Readable states st → st.kind = nfsKind → 1 < st.pid

section Search

variable {sight : Sight} {states : StateDir} {target : CString} {st : MountState}
  {file : UInt64 × CString} {realpath : CString → Option CString}

theorem findMatchingState_eq : findMatchingState sight states target =
    if sight.opendir then
      states.findSome? fun file =>
        if sight.opens file.1 then
          (readMountStateFile file.1 file.2).filter (matchesTarget sight.realpath target)
        else none
    else none := rfl

/-- What the search finds is a file that matches. -/
theorem findMatchingState_spec (found : findMatchingState sight states target = some st) :
    ∃ file ∈ states, readMountStateFile file.1 file.2 = some st ∧
      matchesTarget sight.realpath target st = true := by
  rw [findMatchingState_eq] at found
  split at found
  · obtain ⟨file, inside, read⟩ := List.exists_of_findSome?_eq_some found
    split at read
    · obtain ⟨is, fits⟩ := Option.filter_eq_some_iff.mp read
      exact ⟨file, inside, is, fits⟩
    · cases read
  · cases found

/-- A directory that works: nothing is passed over. -/
structure Sight.Works (sight : Sight) (realpath : CString → Option CString) : Prop where
  realpath : sight.realpath = realpath
  opendir : sight.opendir = true
  opens : ∀ id, sight.opens id = true

theorem findMatchingState_none (works : sight.Works realpath)
    (found : findMatchingState sight states target = none) (readable : Readable states st) :
    matchesTarget realpath target st = false := by
  obtain ⟨file, inside, read⟩ := readable
  rw [findMatchingState_eq, if_pos works.opendir, List.findSome?_eq_none_iff] at found
  have passed := found file inside
  rw [if_pos (works.opens file.1), read, works.realpath] at passed
  simpa [Option.filter] using passed

theorem findMatchingState_cons (works : sight.Works realpath)
    (read : readMountStateFile file.1 file.2 = some st) :
    findMatchingState sight (file :: states) target =
      if matchesTarget realpath target st then some st
      else findMatchingState sight states target := by
  rw [findMatchingState_eq, findMatchingState_eq, if_pos works.opendir, if_pos works.opendir,
    List.findSome?_cons, if_pos (works.opens file.1), read, works.realpath]
  by_cases fits : matchesTarget realpath target st = true
  · simp [Option.filter, fits]
  · simp [Option.filter, fits]

theorem findMatchingState_append {more : StateDir} : findMatchingState sight (states ++ more) target =
    (findMatchingState sight states target).or (findMatchingState sight more target) := by
  rw [findMatchingState_eq, findMatchingState_eq, findMatchingState_eq]
  split
  · exact List.findSome?_append
  · rfl

/-- The only file that opens is the one that is found. -/
theorem findMatchingState_only (unique : (states.map (·.1)).Nodup) (inside : file ∈ states)
    (read : readMountStateFile file.1 file.2 = some st) :
    findMatchingState ⟨realpath, true, true, fun id => id == file.1⟩ states target =
      if matchesTarget realpath target st then some st else none := by
  rw [findMatchingState_eq, if_pos rfl]
  induction states with
  | nil => cases inside
  | cons first rest ih =>
      rw [List.map_cons, List.nodup_cons] at unique
      rw [List.findSome?_cons]
      rcases List.mem_cons.mp inside with rfl | later
      · have others : rest.findSome? (fun other => if (other.1 == file.1) = true then
            (readMountStateFile other.1 other.2).filter (matchesTarget realpath target) else none) =
              none := by
          rw [List.findSome?_eq_none_iff]
          intro other among
          have different : ¬ (other.1 == file.1) = true := by
            intro same
            exact unique.1 (List.mem_map.mpr ⟨other, among, by simpa using same⟩)
          rw [if_neg different]
        dsimp only at others ⊢
        rw [if_pos (by simp), read, others]
        by_cases fits : matchesTarget realpath target st = true
        · simp [Option.filter, fits]
        · simp [Option.filter, fits]
      · have different : ¬ (first.1 == file.1) = true := by
          intro same
          exact unique.1 (List.mem_map.mpr ⟨file, later, by simpa using (beq_iff_eq.mp same).symm⟩)
        dsimp only at ih ⊢
        rw [if_neg different]
        exact ih unique.2 later

/-- A state matches its own canonical device. -/
theorem matchesTarget_self (named : st.canonDev ≠ [])
    (stripped : stripTrailingSlashes st.canonDev = st.canonDev) :
    matchesTarget realpath st.canonDev st = true := by
  unfold matchesTarget stateMatchesTarget
  dsimp only
  rw [stripped]
  simp [named]

end Search

/-! ### What a mount answers from -/

def isMountable : FileKind → Bool
  | .other => false
  | _ => true

/-- The argument names something that can be mounted. -/
def Mountable (paths : Paths) (dev : CString) : Prop :=
  dev ≠ [] ∧ ∃ kind, paths.stat (blockNode dev) = .ok kind ∧ isMountable kind = true

/-- The device that a mount of the argument is about. -/
def Paths.device (paths : Paths) (dev : CString) : CString :=
  canonDevice paths dev
    (match paths.stat (blockNode dev) with
      | .ok kind => isDevice kind
      | .error _ => false)

/-- The names lead there during the whole command. -/
structure MountScript.Sees (script : MountScript) (paths : Paths) : Prop where
  same : script.paths = paths
  rounds : ∀ round ∈ script.rounds,
    round.find.realpath = paths.realpath ∧ round.findDev.realpath = paths.realpath

/-- A mount answers from a state file only if it is one of the very device. -/
def AnswersOwn (paths : Paths) (states : StateDir) (dev : CString) : Prop :=
  ∀ script dryRun world, script.Sees paths → world.states = states →
    ∀ st, (rufuxMount script dev dryRun world).2 = some (.ok (.recorded st)) →
      st.canonDev = paths.device dev

/-- The state files that match the device or the argument itself are of the device. -/
def OwnMatches (paths : Paths) (states : StateDir) (dev : CString) : Prop :=
  Mountable paths dev → ∀ st, Readable states st →
    (matchesTarget paths.realpath (paths.device dev) st = true ∨
      matchesTarget paths.realpath dev st = true) → st.canonDev = paths.device dev

section Answers

variable {paths : Paths} {states : StateDir} {dev canonDev : CString} {world : World} {round : Round}
  {existing st : MountState} {rounds : List Round}

theorem mountRound_fewer : ∀ file ∈ (mountRound round world existing).1.states,
    file ∈ world.states := by
  have forgot : ∀ between : World, between.states = world.states →
      ∀ file ∈ (forgetState round between existing).1.states, file ∈ world.states := by
    intro between same file inside
    unfold forgetState World.unlinkState at inside
    dsimp only at inside
    split at inside
    · exact same ▸ (List.mem_filter.mp inside).1
    · exact same ▸ inside
  have freed : (if isMountpointActive round.look world.mounts existing.mnt
      existing.canonMnt = true then world.ran round.umount else world).states = world.states := by
    split <;> rfl
  unfold mountRound
  dsimp only
  split
  · split
    · exact fun _ inside => inside
    · generalize (if isMountpointActive round.look world.mounts existing.mnt
        existing.canonMnt = true then world.ran round.umount else world) = between at freed ⊢
      split
      · exact fun _ inside => freed ▸ inside
      · split
        · dsimp only
          rw [terminateAndWaitPid_states, freed]
          exact fun _ inside => inside
        · exact forgot _ (terminateAndWaitPid_states.trans freed)
  · split
    · exact fun _ inside => inside
    · split
      · exact forgot _ rfl
      · exact forgot _ rfl

theorem mountRound_answers {after : World}
    (answered : mountRound round world existing = (after, .answers st)) : st = existing := by
  have silent : ∀ between, (forgetState round between existing).2 ≠ .answers st := by
    intro between
    unfold forgetState
    dsimp only
    split <;> nofun
  replace answered := congrArg Prod.snd answered
  unfold mountRound at answered
  dsimp only at answered
  split at answered
  · split at answered
    · cases answered
      rfl
    · generalize (if isMountpointActive round.look world.mounts existing.mnt
        existing.canonMnt = true then world.ran round.umount else world) = between at answered
      split at answered
      · cases answered
      · split at answered
        · cases answered
        · exact absurd answered (silent _)
  · split at answered
    · cases answered
      rfl
    · split at answered
      · exact absurd answered (silent _)
      · exact absurd answered (silent _)

/-- An answer of the loop is from a file that matches the device or the argument. -/
theorem cleanup_answered (sees : ∀ round ∈ rounds,
      round.find.realpath = paths.realpath ∧ round.findDev.realpath = paths.realpath)
    (answered : (cleanup canonDev dev rounds world).2 = .answered st) :
    Readable world.states st ∧
      (matchesTarget paths.realpath canonDev st = true ∨
        matchesTarget paths.realpath dev st = true) := by
  induction rounds generalizing world with
  | nil => cases answered
  | cons round rest ih =>
      obtain ⟨first, second⟩ := sees round List.mem_cons_self
      unfold cleanup at answered
      split at answered
      · cases answered
      · rename_i existing found
        split at answered <;> rename_i ran
        · cases answered
          cases mountRound_answers ran
          rcases Option.or_eq_some_iff.mp found with byDevice | ⟨-, byArgument⟩
          · obtain ⟨file, inside, read, fits⟩ := findMatchingState_spec byDevice
            exact ⟨⟨file, inside, read⟩, Or.inl (first ▸ fits)⟩
          · obtain ⟨file, inside, read, fits⟩ := findMatchingState_spec byArgument
            exact ⟨⟨file, inside, read⟩, Or.inr (second ▸ fits)⟩
        · cases answered
        · cases answered
        · obtain ⟨⟨file, inside, read⟩, fits⟩ :=
            ih (fun round among => sees round (List.mem_cons_of_mem _ among)) answered
          have fewer : file ∈ (mountRound round world existing).1.states := by
            rw [ran]
            exact inside
          exact ⟨⟨file, mountRound_fewer file fewer, read⟩, fits⟩

/-- A command answers from a state file in its loop only. -/
theorem rufuxMount_recorded {script : MountScript} {dryRun : Bool}
    (answered : (rufuxMount script dev dryRun world).2 = some (.ok (.recorded st))) :
    Mountable script.paths dev ∧
      (cleanup (script.paths.device dev) dev script.rounds world).2 = .answered st := by
  unfold rufuxMount at answered
  dsimp only at answered
  split at answered
  · cases answered
  · rename_i nonempty
    split at answered
    · cases answered
    · split at answered
      · cases answered
      · split at answered
        · cases answered
        · cases answered
        · rename_i kind known other
          have device : script.paths.device dev = canonDevice script.paths dev (isDevice kind) := by
            unfold Paths.device
            rw [other]
          have mountable : isMountable kind = true := by
            cases kind with
            | regular => rfl
            | device name => rfl
            | other => exact absurd rfl known
          rw [device]
          split at answered
          · cases answered
          · split at answered
            · cases answered
            · rename_i ended
              cases answered
              exact ⟨⟨nonempty, kind, other, mountable⟩, by rw [ended]⟩
            · cases answered
            · exact absurd (Option.some.inj answered) mountFresh_new

theorem mountRound_active
    (active : isMountpointActive round.look world.mounts existing.mnt existing.canonMnt = true)
    (alive : existing.kind = nfsKind → pidIsAlive world existing.pid = true) :
    mountRound round world existing = (world, .answers existing) := by
  unfold mountRound
  dsimp only
  split
  · rename_i nfs
    rw [active, alive nfs]
    rfl
  · rfl

/-- A look around with one state file that opens. -/
def onlyFile (realpath : CString → Option CString) (id : UInt64) : Sight :=
  ⟨realpath, true, true, fun other => other == id⟩

/-- A mount while the file of a state is the only one that opens. -/
def answeringScript (paths : Paths) (id : UInt64) : MountScript :=
  { imageScript [] 2 1 [] with
    paths
    rounds := [⟨onlyFile paths.realpath id, onlyFile paths.realpath id, onlyFile paths.realpath id,
      leaves [], onlyFile paths.realpath id, exitsAtOnce, leaves [], true⟩] }

/-- A world where the state's mount point is mounted and its daemon runs. -/
def answeringWorld (states : StateDir) (st : MountState) : World :=
  ⟨states, [exportAt st.mnt], [⟨st.pid, st.canonDev, 0, some st.mnt⟩], [], []⟩

theorem answeringScript_sees {id : UInt64} : (answeringScript paths id).Sees paths where
  same := rfl
  rounds := by
    intro round inside
    cases List.mem_singleton.mp inside
    exact ⟨rfl, rfl⟩

theorem answeringScript_recorded {file : UInt64 × CString} (kept : WellKept states)
    (mountable : Mountable paths dev) (inside : file ∈ states)
    (read : readMountStateFile file.1 file.2 = some st)
    (fits : matchesTarget paths.realpath (paths.device dev) st = true ∨
      matchesTarget paths.realpath dev st = true) :
    (rufuxMount (answeringScript paths file.1) dev false (answeringWorld states st)).2 =
      some (.ok (.recorded st)) := by
  have readable : Readable states st := ⟨file, inside, read⟩
  have search : ∀ target, findMatchingState (onlyFile paths.realpath file.1) states target =
      if matchesTarget paths.realpath target st then some st else none :=
    fun target => findMatchingState_only kept.names inside read
  have found : (findMatchingState (onlyFile paths.realpath file.1) states (paths.device dev)).or
      (findMatchingState (onlyFile paths.realpath file.1) states dev) = some st := by
    rw [search, search]
    rcases fits with byDevice | byArgument
    · rw [if_pos byDevice]
      rfl
    · rw [if_pos byArgument]
      split <;> rfl
  have covers : Covers st st.mnt := ⟨kept.mnt st readable, Or.inl rfl⟩
  have active : isMountpointActive (onlyFile paths.realpath file.1) [exportAt st.mnt] st.mnt
      st.canonMnt = true :=
    isMountpointActive_of_mem rfl covers List.mem_cons_self rfl
  have alive : st.kind = nfsKind → pidIsAlive (answeringWorld states st) st.pid = true := by
    intro nfs
    simp [pidIsAlive, World.runs, answeringWorld, kept.pid st readable nfs]
  have ended : cleanup (paths.device dev) dev (answeringScript paths file.1).rounds
      (answeringWorld states st) = (answeringWorld states st, .answered st) := by
    change cleanup (paths.device dev) dev [_] (answeringWorld states st) = _
    unfold cleanup
    rw [show (answeringWorld states st).states = states from rfl, found]
    dsimp only
    rw [mountRound_active active alive]
  obtain ⟨nonempty, kind, stat, mountable⟩ := mountable
  have device : paths.device dev = canonDevice paths dev (isDevice kind) := by
    unfold Paths.device
    rw [stat]
  rw [device] at ended
  unfold rufuxMount
  dsimp only
  have quiet : ∀ other, (answeringScript paths file.1).isBootDisk other = false := fun _ => rfl
  have made : (answeringScript paths file.1).makesStateDir = true := rfl
  have same : (answeringScript paths file.1).paths = paths := rfl
  rw [if_neg nonempty, quiet, quiet, made, same, stat]
  cases kind with
  | regular =>
      dsimp only
      rw [ended]
      rfl
  | device name =>
      dsimp only
      rw [ended]
      rfl
  | other => cases mountable

/-- A mount answers from files of the device exactly when no other file matches. -/
theorem answersOwn_iff (kept : WellKept states) :
    AnswersOwn paths states dev ↔ OwnMatches paths states dev := by
  constructor
  · intro own mountable st readable fits
    obtain ⟨file, inside, read⟩ := readable
    exact own _ false (answeringWorld states st) answeringScript_sees rfl st
      (answeringScript_recorded kept mountable inside read fits)
  · intro own script dryRun world sees here st answered
    obtain ⟨mountable, ended⟩ := rufuxMount_recorded answered
    rw [sees.same] at mountable ended
    obtain ⟨readable, fits⟩ := cleanup_answered sees.rounds ended
    exact own mountable st (here ▸ readable) fits

end Answers

end Rufux.Macos
