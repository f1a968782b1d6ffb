import Rufux.Macos.MountMatching

/-!
Which state files a sweep over a disk acts on and which it leaves, and when these are the
files of other disks, in whatever order the directory lists them.
-/

namespace Rufux.Macos

open Library

/-- The path of a disk or of one of its slices. -/
def isSliceOf (whole path : CString) : Bool :=
  whole.isPrefixOf path &&
    match path.drop whole.length with
    | [] => true
    | 's' :: digit :: _ => digit.isDigit
    | _ => false

/-- A state of the disk or of one of its slices, or of an image attached as that disk. -/
def OfDisk (realpath : CString → Option CString) (disk : CString) (st : MountState) : Bool :=
  match parseBsdIdent realpath (blockNode disk) with
  | some _ =>
      isSliceOf (wholeTarget realpath disk) st.canonDev ||
        isSliceOf (wholeTarget realpath disk) st.attachedDisk
  | none => st.canonDev = (realpath (blockNode disk)).getD (blockNode disk)

/-- The file says so of its state. -/
def fileHas (p : MountState → Bool) (file : UInt64 × CString) : Bool :=
  ((readMountStateFile file.1 file.2).map p).getD false

/-- A round during which the state directory works. -/
structure DiskRound.Works (round : DiskRound) (realpath : CString → Option CString) : Prop where
  find : round.find.Works realpath
  unmount : round.unmount.find.Works realpath
  unlinks : round.unmount.unlinks = true

/-- A sweep that succeeds has acted on states of the disk only and has left none of them, in
whatever order the directory lists its files. -/
def SweepsExactly (realpath : CString → Option CString) (states : StateDir) (disk : CString) : Prop :=
  disk ≠ [] → ∀ rounds world, (∀ round ∈ rounds, round.Works realpath) → world.states.Perm states →
    (rufuxUnmountAllForDisk realpath true rounds disk world).answer = some (.ok ()) →
      (∀ st ∈ (rufuxUnmountAllForDisk realpath true rounds disk world).acted,
        OfDisk realpath disk st = true) ∧
      (∀ st, Readable (rufuxUnmountAllForDisk realpath true rounds disk world).world.states st →
        OfDisk realpath disk st = false) ∧
      ∀ file ∈ world.states, fileHas (OfDisk realpath disk) file = false →
        file ∈ (rufuxUnmountAllForDisk realpath true rounds disk world).world.states

/-- The states that a path for the whole disk matches are those with the property, what
matches one of their devices has it too, and there are no more of them than rounds. -/
structure SweepClean (realpath : CString → Option CString) (target : CString)
    (p : MountState → Bool) (guards : Nat) (states : StateDir) : Prop where
  own : ∀ st, Readable states st → matchesTarget realpath target st = true → p st = true
  all : ∀ st, Readable states st → p st = true → matchesTarget realpath target st = true
  closed : ∀ st other, Readable states st → Readable states other →
    matchesTarget realpath target st = true →
      matchesTarget realpath st.canonDev other = true → p other = true
  few : states.countP (fileHas p) ≤ guards

section Unlinked

variable {states fewer : StateDir} {st : MountState} {file : UInt64 × CString} {p : MountState → Bool}
  {realpath : CString → Option CString} {id : UInt64}

theorem Readable.mono (readable : Readable fewer st) (subset : fewer ⊆ states) :
    Readable states st := by
  obtain ⟨file, inside, read⟩ := readable
  exact ⟨file, subset inside, read⟩

theorem WellKept.sublist (kept : WellKept states) (sublist : fewer.Sublist states) :
    WellKept fewer where
  names := kept.names.sublist (sublist.map _)
  canonDev := fun st readable => kept.canonDev st (readable.mono sublist.subset)
  mnt := fun st readable => kept.mnt st (readable.mono sublist.subset)
  pid := fun st readable => kept.pid st (readable.mono sublist.subset)

theorem WellKept.perm (kept : WellKept states) (perm : fewer.Perm states) : WellKept fewer where
  names := (perm.map _).nodup_iff.mpr kept.names
  canonDev := fun st readable => kept.canonDev st (readable.mono perm.subset)
  mnt := fun st readable => kept.mnt st (readable.mono perm.subset)
  pid := fun st readable => kept.pid st (readable.mono perm.subset)

theorem fileHas_of_read (read : readMountStateFile file.1 file.2 = some st) :
    fileHas p file = p st := by
  simp [fileHas, read]

theorem exists_of_fileHas (has : fileHas p file = true) :
    ∃ st, readMountStateFile file.1 file.2 = some st ∧ p st = true := by
  unfold fileHas at has
  cases read : readMountStateFile file.1 file.2 with
  | none => simp [read] at has
  | some st => exact ⟨st, rfl, by simpa [read] using has⟩

/-- Files under names of their own are the same file where their names are. -/
theorem WellKept.same {other : UInt64 × CString} (kept : WellKept states) (inside : file ∈ states)
    (among : other ∈ states) (same : file.1 = other.1) : file = other :=
  List.inj_on_of_nodup_map kept.names inside among same

/-- A file that is unlinked is one file less. -/
theorem countP_unlink_lt {q : UInt64 × CString → Bool} (inside : file ∈ states)
    (has : q file = true) : (states.filter (·.1 != file.1)).countP q < states.countP q := by
  have split := List.countP_eq_countP_filter_add states q (·.1 != file.1)
  have counted : 0 < (states.filter fun other => !(other.1 != file.1)).countP q := by
    rw [List.countP_pos_iff]
    exact ⟨file, by simp [inside], has⟩
  omega

theorem countP_unlink_le {q : UInt64 × CString → Bool} (unique : (states.map (·.1)).Nodup) :
    states.countP q ≤ (states.filter (·.1 != id)).countP q + 1 := by
  induction states with
  | nil => exact Nat.zero_le _
  | cons first rest ih =>
      rw [List.map_cons, List.nodup_cons] at unique
      by_cases same : first.1 = id
      · have others : rest.filter (·.1 != id) = rest := by
          rw [List.filter_eq_self]
          intro other inside
          have different : other.1 ≠ id := by
            rintro rfl
            exact unique.1 (List.mem_map.mpr ⟨other, inside, same.symm⟩)
          simpa using different
        rw [List.filter_cons_of_neg (by simpa using same), others, List.countP_cons]
        split <;> omega
      · rw [List.filter_cons_of_pos (by simpa using same), List.countP_cons, List.countP_cons]
        have := ih unique.2
        omega

theorem SweepClean.sublist {target : CString} {guards less : Nat}
    (clean : SweepClean realpath target p guards states) (sublist : fewer.Sublist states)
    (few : fewer.countP (fileHas p) ≤ less) : SweepClean realpath target p less fewer where
  own := fun st readable => clean.own st (readable.mono sublist.subset)
  all := fun st readable => clean.all st (readable.mono sublist.subset)
  closed := fun st other readable among =>
    clean.closed st other (readable.mono sublist.subset) (among.mono sublist.subset)
  few := few

theorem SweepClean.perm {target : CString} {guards : Nat}
    (clean : SweepClean realpath target p guards states) (perm : fewer.Perm states) :
    SweepClean realpath target p guards fewer where
  own := fun st readable => clean.own st (readable.mono perm.subset)
  all := fun st readable => clean.all st (readable.mono perm.subset)
  closed := fun st other readable among =>
    clean.closed st other (readable.mono perm.subset) (among.mono perm.subset)
  few := (perm.countP_eq _).trans_le clean.few

end Unlinked

section Sweeping

variable {script : UnmountScript} {dev target : CString} {world : World} {states : StateDir}
  {st : MountState} {file : UInt64 × CString} {p : MountState → Bool} {guards : Nat}
  {round : DiskRound} {rounds : List DiskRound} {realpath : CString → Option CString}

theorem unmountExport_states : (unmountExport script world st).1.states = world.states := by
  unfold unmountExport
  dsimp only
  repeat' split
  all_goals rfl

theorem unmountNfs_states (ok : (unmountNfs script world st).2 = .ok ()) :
    (unmountNfs script world st).1.states =
      (world.unlinkState st.stateFile script.unlinks).states := by
  have exported := @unmountExport_states script world st
  unfold unmountNfs at ok ⊢
  split at ok <;> rename_i ran <;> rw [ran] at exported
  · cases ok
  · dsimp only at ok exported ⊢
    split at ok
    · cases ok
    · rename_i freed
      rw [if_neg freed]
      split at ok
      · cases ok
      · rename_i ended
        rw [if_neg ended]
        unfold World.unlinkState
        split
        · dsimp only
          rw [terminateAndWaitPid_states, exported]
        · rw [terminateAndWaitPid_states, exported]

theorem unmountByTool_states {plain force : Answer} {failure : CString → UnmountError}
    (ok : (unmountByTool script plain force failure world st).2 = .ok ()) :
    (unmountByTool script plain force failure world st).1.states =
      (world.unlinkState st.stateFile script.unlinks).states := by
  have ran : ∀ between : World, between.states = world.states →
      (between.unlinkState st.stateFile script.unlinks).states =
        (world.unlinkState st.stateFile script.unlinks).states := by
    intro between same
    unfold World.unlinkState
    split
    · dsimp only
      rw [same]
    · exact same
  unfold unmountByTool at ok ⊢
  dsimp only at ok ⊢
  split at ok
  · rename_i works
    rw [if_pos works]
    exact ran _ rfl
  · rename_i fails
    rw [if_neg fails]
    split at ok
    · rename_i forced
      rw [if_pos forced]
      exact ran _ rfl
    · cases ok

/-- An unmount that finds a state and succeeds unlinks the file of that state. -/
theorem rufuxUnmount_states (found : findMatchingState script.find world.states dev = some st)
    (ok : (rufuxUnmount script dev false world).2 = .ok ()) :
    (rufuxUnmount script dev false world).1.states =
      (world.unlinkState st.stateFile script.unlinks).states := by
  unfold rufuxUnmount at ok ⊢
  split at ok
  · cases ok
  · rename_i nonempty
    rw [if_neg nonempty]
    split at ok
    · cases ok
    · rename_i allowed
      rw [if_neg allowed]
      rw [if_neg (by decide), found] at ok ⊢
      dsimp only at ok ⊢
      split at ok
      · rename_i nfs
        rw [if_pos nfs]
        exact unmountNfs_states ok
      · rename_i other
        rw [if_neg other]
        split at ok
        · rename_i image
          rw [if_pos image]
          exact unmountByTool_states ok
        · rename_i native
          rw [if_neg native]
          exact unmountByTool_states ok

/-- A state is asked for by its device. -/
theorem WellKept.asks (kept : WellKept states) (readable : Readable states st) :
    st.target = st.canonDev :=
  if_pos (kept.canonDev st readable).1

/-- The state that a round has found is found again, or another one before it. -/
theorem WellKept.found_again {sight : Sight} (kept : WellKept states) (works : sight.Works realpath)
    (readable : Readable states st) :
    ∃ other, findMatchingState sight states st.target = some other := by
  obtain ⟨named, -, stripped⟩ := kept.canonDev st readable
  rw [kept.asks readable]
  cases found : findMatchingState sight states st.canonDev with
  | some other => exact ⟨other, rfl⟩
  | none =>
      have missed := findMatchingState_none works found readable
      rw [matchesTarget_self named stripped] at missed
      cases missed

theorem sweep_none (found : findMatchingState round.find world.states target = none) :
    sweep target (guards + 1) (round :: rounds) world = ⟨world, [], some (.ok ())⟩ := by
  unfold sweep
  rw [found]

/-- A round acts on the state it finds and on the one that the unmount finds. -/
theorem sweep_acts {other : MountState}
    (found : findMatchingState round.find world.states target = some st)
    (again : findMatchingState round.unmount.find world.states st.target = some other) :
    ∃ rest, (sweep target (guards + 1) (round :: rounds) world).acted = st :: other :: rest := by
  unfold sweep
  rw [found]
  dsimp only
  rw [again]
  split
  · exact ⟨[], rfl⟩
  · exact ⟨_, rfl⟩

theorem sweep_error {why : UnmountError}
    (found : findMatchingState round.find world.states target = some st)
    (failed : (rufuxUnmount round.unmount st.target false world).2 = .error why) :
    (sweep target (guards + 1) (round :: rounds) world).answer = some (.error why) := by
  unfold sweep
  rw [found]
  dsimp only
  rw [failed]

theorem sweep_ok {other : MountState}
    (found : findMatchingState round.find world.states target = some st)
    (again : findMatchingState round.unmount.find world.states st.target = some other)
    (unmounted : (rufuxUnmount round.unmount st.target false world).2 = .ok ()) :
    sweep target (guards + 1) (round :: rounds) world =
      { sweep target guards rounds (rufuxUnmount round.unmount st.target false world).1 with
        acted := st :: other :: (sweep target guards rounds
          (rufuxUnmount round.unmount st.target false world).1).acted } := by
  conv_lhs => unfold sweep
  rw [found]
  dsimp only
  rw [unmounted, again]
  rfl

/-- The loop acts on states with the property and leaves none, and it keeps the other files. -/
theorem sweep_exact (works : ∀ round ∈ rounds, round.Works realpath) (kept : WellKept world.states)
    (clean : SweepClean realpath target p guards world.states)
    (ok : (sweep target guards rounds world).answer = some (.ok ())) :
    (∀ st ∈ (sweep target guards rounds world).acted, p st = true) ∧
      (∀ st, Readable (sweep target guards rounds world).world.states st → p st = false) ∧
      ∀ file ∈ world.states, fileHas p file = false →
        file ∈ (sweep target guards rounds world).world.states := by
  induction guards generalizing rounds world with
  | zero =>
      refine ⟨nofun, ?_, fun file inside _ => inside⟩
      rintro st ⟨file, inside, read⟩
      have none := List.countP_eq_zero.mp (Nat.le_zero.mp clean.few) file inside
      rw [fileHas_of_read read] at none
      simpa using none
  | succ guards ih =>
      cases rounds with
      | nil => cases ok
      | cons round rounds =>
          obtain ⟨find, unmount, unlinks⟩ := works round List.mem_cons_self
          cases found : findMatchingState round.find world.states target with
          | none =>
              rw [sweep_none found]
              refine ⟨nofun, ?_, fun file inside _ => inside⟩
              intro st readable
              have missed := findMatchingState_none find found readable
              by_contra has
              rw [clean.all st readable (by simpa using has)] at missed
              cases missed
          | some ms =>
              obtain ⟨msFile, msInside, msRead, fits⟩ := findMatchingState_spec found
              rw [find.realpath] at fits
              have readable : Readable world.states ms := ⟨msFile, msInside, msRead⟩
              obtain ⟨other, again⟩ := kept.found_again unmount readable
              obtain ⟨file, inside, read, near⟩ := findMatchingState_spec again
              rw [unmount.realpath, kept.asks readable] at near
              have has : p other = true :=
                clean.closed ms other readable ⟨file, inside, read⟩ fits near
              cases unmounted : (rufuxUnmount round.unmount ms.target false world).2 with
              | error why =>
                  rw [sweep_error found unmounted] at ok
                  cases ok
              | ok =>
                  have left := rufuxUnmount_states again unmounted
                  rw [unlinks, readMountStateFile_stateFile read] at left
                  change _ = world.states.filter _ at left
                  have sublist : (world.states.filter (·.1 != file.1)).Sublist world.states :=
                    List.filter_sublist
                  have less : (world.states.filter (·.1 != file.1)).countP (fileHas p) <
                      world.states.countP (fileHas p) :=
                    countP_unlink_lt inside ((fileHas_of_read read).trans has)
                  have fewer := Nat.le_of_lt_succ (less.trans_le clean.few)
                  rw [sweep_ok found again unmounted] at ok ⊢
                  obtain ⟨acted, rest, others⟩ := ih
                    (fun round among => works round (List.mem_cons_of_mem _ among))
                    (left ▸ kept.sublist sublist) (left ▸ clean.sublist sublist fewer) ok
                  refine ⟨?_, rest, ?_⟩
                  · intro st among
                    rcases List.mem_cons.mp among with rfl | among
                    · exact clean.own _ readable fits
                    · rcases List.mem_cons.mp among with rfl | later
                      · exact has
                      · exact acted st later
                  · intro foreign foreignInside hasNot
                    refine others foreign ?_ hasNot
                    rw [left, List.mem_filter]
                    refine ⟨foreignInside, ?_⟩
                    have different : foreign.1 ≠ file.1 := by
                      intro same
                      cases kept.same foreignInside inside same
                      rw [fileHas_of_read read, has] at hasNot
                      cases hasNot
                    simpa using different

/-- Nothing is mounted and nothing runs. -/
structure World.Quiet (world : World) : Prop where
  mounts : world.mounts = []
  daemons : world.daemons = []
  strangers : world.strangers = []

/-- A round in which every tool succeeds. -/
def smoothRound (realpath : CString → Option CString) : DiskRound :=
  ⟨⟨realpath, true, true, fun _ => true⟩,
    { unmountScript [] with find := ⟨realpath, true, true, fun _ => true⟩ }⟩

theorem smoothRound_works : (smoothRound realpath).Works realpath :=
  ⟨⟨rfl, rfl, fun _ => rfl⟩, ⟨rfl, rfl, fun _ => rfl⟩, rfl⟩

theorem World.Quiet.ran (quiet : world.Quiet) : (world.ran (leaves [])).Quiet := by
  refine ⟨rfl, ?_, ?_⟩
  · change world.daemons.filter _ = []
    rw [quiet.daemons]
    rfl
  · rfl

theorem World.Quiet.unlinkState (quiet : world.Quiet) (id : UInt64) (works : Bool) :
    (world.unlinkState id works).Quiet := by
  unfold World.unlinkState
  split
  · exact ⟨quiet.mounts, quiet.daemons, quiet.strangers⟩
  · exact quiet

theorem World.Quiet.free (quiet : world.Quiet) (pid : Int) : world.runs pid = false := by
  simp [World.runs, quiet.daemons, quiet.strangers]

/-- With nothing in the way an unmount succeeds. -/
theorem smoothRound_unmounts (quiet : world.Quiet) (nonempty : dev ≠ []) (allowed : dev ≠ ['/'])
    (found : findMatchingState (smoothRound realpath).unmount.find world.states dev = some st) :
    (rufuxUnmount (smoothRound realpath).unmount dev false world).2 = .ok () ∧
      (rufuxUnmount (smoothRound realpath).unmount dev false world).1.Quiet := by
  have inactive : ∀ sight, isMountpointActive sight world.mounts st.mnt st.canonMnt = false := by
    intro sight
    rw [quiet.mounts]
    unfold isMountpointActive
    split
    · rfl
    · exact Bool.and_false _
  have nfs : unmountNfs (smoothRound realpath).unmount world st =
      (world.unlinkState st.stateFile (smoothRound realpath).unmount.unlinks, .ok ()) := by
    have exported : unmountExport (smoothRound realpath).unmount world st = (world, none) := by
      unfold unmountExport
      exact if_pos (by dsimp only; rw [inactive]; rfl)
    have ended : terminateAndWaitPid world (some st) st.pid (smoothRound realpath).unmount.ending =
        world := if_pos (Or.inr (quiet.free st.pid))
    have dead : pidIsAlive world st.pid = false := by
      rw [pidIsAlive, quiet.free, Bool.and_false]
    unfold unmountNfs
    rw [exported]
    dsimp only
    rw [inactive, ended, dead]
    rfl
  unfold rufuxUnmount
  have unbarred : ¬ (dev = ['/'] ∨ (smoothRound realpath).unmount.isBootDisk dev = true) := by
    rintro (root | boot)
    · exact allowed root
    · cases boot
  rw [if_neg nonempty, if_neg unbarred, if_neg (by decide), found]
  dsimp only
  split
  · rw [nfs]
    exact ⟨rfl, quiet.unlinkState st.stateFile true⟩
  · split
    · exact ⟨rfl, quiet.ran.unlinkState st.stateFile true⟩
    · exact ⟨rfl, quiet.ran.unlinkState st.stateFile true⟩

/-- A round over a quiet world finds no state or unlinks a file of its directory. -/
theorem smoothRound_cases (quiet : world.Quiet) (kept : WellKept world.states) :
    (sweep target (guards + 1) (smoothRound realpath :: rounds) world =
        ⟨world, [], some (.ok ())⟩) ∨
      ∃ ms other after, findMatchingState (smoothRound realpath).find world.states target = some ms ∧
        findMatchingState (smoothRound realpath).unmount.find world.states ms.target = some other ∧
        after.Quiet ∧ after.states = world.states.filter (·.1 != other.stateFile) ∧
        sweep target (guards + 1) (smoothRound realpath :: rounds) world =
          { sweep target guards rounds after with
            acted := ms :: other :: (sweep target guards rounds after).acted } := by
  cases found : findMatchingState (smoothRound realpath).find world.states target with
  | none => exact Or.inl (sweep_none found)
  | some ms =>
      obtain ⟨file, inside, read, -⟩ := findMatchingState_spec found
      have readable : Readable world.states ms := ⟨file, inside, read⟩
      obtain ⟨other, again⟩ := kept.found_again smoothRound_works.unmount readable
      have asks := kept.asks readable
      obtain ⟨named, notRoot, -⟩ := kept.canonDev ms readable
      obtain ⟨ok, after⟩ := smoothRound_unmounts quiet (asks ▸ named) (asks ▸ notRoot) again
      have left := rufuxUnmount_states again ok
      exact Or.inr ⟨ms, other, _, rfl, again, after, left, sweep_ok found again ok⟩

/-- A loop of rounds in which every tool succeeds. -/
theorem smoothRounds_succeed (quiet : world.Quiet) (kept : WellKept world.states) :
    (sweep target guards (List.replicate guards (smoothRound realpath)) world).answer =
      some (.ok ()) := by
  induction guards generalizing world with
  | zero => rfl
  | succ guards ih =>
      rw [List.replicate_succ]
      obtain done | ⟨ms, other, after, -, -, still, left, done⟩ := smoothRound_cases quiet kept
      · rw [done]
      · rw [done]
        exact ih still (left ▸ kept.sublist List.filter_sublist)

/-- Each round unlinks one file at most. -/
theorem smoothRounds_count (quiet : world.Quiet) (kept : WellKept world.states)
    (q : UInt64 × CString → Bool) : world.states.countP q ≤
      (sweep target guards (List.replicate guards (smoothRound realpath)) world).world.states.countP q
        + guards := by
  induction guards generalizing world with
  | zero => exact Nat.le_refl _
  | succ guards ih =>
      rw [List.replicate_succ]
      obtain done | ⟨ms, other, after, -, -, still, left, done⟩ := smoothRound_cases quiet kept
      · rw [done]
        exact Nat.le_add_right _ _
      · rw [done]
        have fewer := (@countP_unlink_le _ other.stateFile q) kept.names
        have later := ih still (left ▸ kept.sublist List.filter_sublist)
        rw [left] at later
        dsimp only
        omega

/-- A file that is the last one of the directory is not unlinked before one that matches. -/
theorem smoothRounds_last {before : StateDir} (quiet : world.Quiet) (kept : WellKept world.states)
    (last : world.states = before ++ [file]) (read : readMountStateFile file.1 file.2 = some st)
    (misses : matchesTarget realpath target st = false) : file ∈
      (sweep target guards (List.replicate guards (smoothRound realpath)) world).world.states := by
  have split : ∀ before target, findMatchingState (smoothRound realpath).find (before ++ [file])
      target = (findMatchingState (smoothRound realpath).find before target).or
        (if matchesTarget realpath target st then some st else none) := by
    intro before target
    have alone : findMatchingState (smoothRound realpath).find [file] target =
        if matchesTarget realpath target st then some st
        else findMatchingState (smoothRound realpath).find [] target :=
      findMatchingState_cons smoothRound_works.find read
    rw [findMatchingState_append, alone]
    rfl
  induction guards generalizing world before with
  | zero =>
      change file ∈ world.states
      rw [last]
      exact List.mem_append_right _ List.mem_cons_self
  | succ guards ih =>
      rw [List.replicate_succ]
      obtain done | ⟨ms, other, after, found, again, still, left, done⟩ :=
        smoothRound_cases quiet kept
      · rw [done, last]
        exact List.mem_append_right _ List.mem_cons_self
      · rw [done]
        have sublist : before.Sublist world.states := last ▸ List.sublist_append_left _ _
        rw [last, split, misses] at found
        have earlier : findMatchingState (smoothRound realpath).find before target = some ms := by
          simpa using found
        obtain ⟨msFile, msInside, msRead, -⟩ := findMatchingState_spec earlier
        obtain ⟨first, firstFound⟩ := (kept.sublist sublist).found_again
          ((@smoothRound_works realpath)).find ⟨msFile, msInside, msRead⟩
        change findMatchingState (smoothRound realpath).find world.states ms.target = _ at again
        rw [last, split, firstFound] at again
        cases again
        obtain ⟨otherFile, otherInside, otherRead, -⟩ := findMatchingState_spec firstFound
        rw [readMountStateFile_stateFile otherRead, last, List.filter_append] at left
        have different : (file.1 != otherFile.1) = true := by
          have unique := kept.names
          rw [last, List.map_append, List.nodup_append] at unique
          have apart := unique.2.2 otherFile.1 (List.mem_map.mpr ⟨otherFile, otherInside, rfl⟩)
            file.1 (by simp)
          simpa using apart.symm
        have stays : List.filter (fun x => x.1 != otherFile.1) [file] = [file] := by
          simpa using different
        rw [stays] at left
        have whole : after.states.Sublist world.states := by
          rw [left, last]
          exact List.filter_sublist.append (List.Sublist.refl _)
        exact ih still (kept.sublist whole) left

end Sweeping

section Matching

variable {paths : Paths} {states : StateDir} {dev disk : CString} {p : MountState → Bool}
  {realpath : CString → Option CString}

theorem SweepClean.of_sweepsExactly (kept : WellKept states) (nonempty : disk ≠ [])
    (exactly : SweepsExactly realpath states disk) :
    SweepClean realpath (wholeTarget realpath disk) (OfDisk realpath disk) 32 states := by
  -- In each order of the directory the rounds go through with all tools succeeding.
  have run : ∀ order : StateDir, order.Perm states →
      let swept := sweep (wholeTarget realpath disk) 32 (List.replicate 32 (smoothRound realpath))
        ⟨order, [], [], [], []⟩
      (∀ st ∈ swept.acted, OfDisk realpath disk st = true) ∧
        (∀ st, Readable swept.world.states st → OfDisk realpath disk st = false) := by
    intro order perm
    have ok := @smoothRounds_succeed (wholeTarget realpath disk) ⟨order, [], [], [], []⟩ 32 realpath
      ⟨rfl, rfl, rfl⟩ (kept.perm perm)
    have works : ∀ round ∈ List.replicate 32 (smoothRound realpath), round.Works realpath := by
      intro round inside
      cases List.eq_of_mem_replicate inside
      exact smoothRound_works
    have whole : rufuxUnmountAllForDisk realpath true (List.replicate 32 (smoothRound realpath)) disk
        ⟨order, [], [], [], []⟩ = sweep (wholeTarget realpath disk) 32
          (List.replicate 32 (smoothRound realpath)) ⟨order, [], [], [], []⟩ := by
      unfold rufuxUnmountAllForDisk
      rw [if_neg nonempty]
      rfl
    have answered := exactly nonempty _ ⟨order, [], [], [], []⟩ works perm (whole ▸ ok)
    rw [whole] at answered
    exact ⟨answered.1, answered.2.1⟩
  have own : ∀ st, Readable states st →
      matchesTarget realpath (wholeTarget realpath disk) st = true →
        OfDisk realpath disk st = true := by
    rintro st ⟨file, inside, read⟩ fits
    have perm : (file :: states.erase file).Perm states := (List.perm_cons_erase inside).symm
    have found : findMatchingState (smoothRound realpath).find (file :: states.erase file)
        (wholeTarget realpath disk) = some st := by
      rw [findMatchingState_cons smoothRound_works.find read, if_pos fits]
    obtain ⟨other, again⟩ := (kept.perm perm).found_again
      ((@smoothRound_works realpath)).unmount ⟨file, List.mem_cons_self, read⟩
    obtain ⟨rest, acted⟩ := @sweep_acts (wholeTarget realpath disk)
      ⟨file :: states.erase file, [], [], [], []⟩ st 31 (smoothRound realpath)
      (List.replicate 31 (smoothRound realpath)) other found again
    refine (run _ perm).1 st ?_
    rw [List.replicate_succ, acted]
    exact List.mem_cons_self
  refine ⟨own, ?_, ?_, ?_⟩
  · rintro st ⟨file, inside, read⟩ has
    by_contra misses
    have perm : (states.erase file ++ [file]).Perm states :=
      (List.perm_append_comm).trans (List.perm_cons_erase inside).symm
    have stays := @smoothRounds_last (wholeTarget realpath disk)
      ⟨states.erase file ++ [file], [], [], [], []⟩ st file 32 realpath (states.erase file)
      ⟨rfl, rfl, rfl⟩ (kept.perm perm) rfl read (by simpa using misses)
    have none := (run _ perm).2 st ⟨file, stays, read⟩
    rw [has] at none
    cases none
  · rintro st other readable ⟨file, inside, read⟩ fits near
    by_cases alsoFits : matchesTarget realpath (wholeTarget realpath disk) other = true
    · exact own other ⟨file, inside, read⟩ alsoFits
    · obtain ⟨stFile, stInside, stRead⟩ := readable
      have different : stFile ≠ file := by
        rintro rfl
        rw [read] at stRead
        cases stRead
        exact alsoFits fits
      have perm : (file :: stFile :: (states.erase file).erase stFile).Perm states :=
        ((List.perm_cons_erase ((List.mem_erase_of_ne different).mpr stInside)).symm.cons file).trans
          (List.perm_cons_erase inside).symm
      have found : findMatchingState (smoothRound realpath).find
          (file :: stFile :: (states.erase file).erase stFile) (wholeTarget realpath disk) = some st := by
        rw [findMatchingState_cons smoothRound_works.find read, if_neg alsoFits,
          findMatchingState_cons smoothRound_works.find stRead, if_pos fits]
      have again : findMatchingState (smoothRound realpath).unmount.find
          (file :: stFile :: (states.erase file).erase stFile) st.target = some other := by
        rw [kept.asks ⟨stFile, stInside, stRead⟩,
          findMatchingState_cons smoothRound_works.unmount read, if_pos near]
      obtain ⟨rest, acted⟩ := @sweep_acts (wholeTarget realpath disk)
        ⟨file :: stFile :: (states.erase file).erase stFile, [], [], [], []⟩ st 31
        (smoothRound realpath) (List.replicate 31 (smoothRound realpath)) other found again
      refine (run _ perm).1 other ?_
      rw [List.replicate_succ, acted]
      exact List.mem_cons_of_mem _ List.mem_cons_self
  · have counted := @smoothRounds_count (wholeTarget realpath disk) ⟨states, [], [], [], []⟩ 32 realpath
      ⟨rfl, rfl, rfl⟩ kept (fileHas (OfDisk realpath disk))
    have none : (sweep (wholeTarget realpath disk) 32 (List.replicate 32 (smoothRound realpath))
        ⟨states, [], [], [], []⟩).world.states.countP (fileHas (OfDisk realpath disk)) = 0 := by
      rw [List.countP_eq_zero]
      intro file inside has
      obtain ⟨st, read, ofDisk⟩ := exists_of_fileHas has
      have left := (run states (List.Perm.refl _)).2 st ⟨file, inside, read⟩
      rw [ofDisk] at left
      cases left
    rw [none] at counted
    exact counted

theorem sweepsExactly_iff (kept : WellKept states) : SweepsExactly realpath states disk ↔
    disk = [] ∨ SweepClean realpath (wholeTarget realpath disk) (OfDisk realpath disk) 32 states := by
  constructor
  · intro exactly
    by_cases empty : disk = []
    · exact Or.inl empty
    · exact Or.inr (.of_sweepsExactly kept empty exactly)
  · rintro (empty | clean) nonempty rounds world works perm ok
    · exact absurd empty nonempty
    · unfold rufuxUnmountAllForDisk at ok ⊢
      rw [if_neg nonempty] at ok ⊢
      exact sweep_exact works (kept.perm perm) (clean.perm perm) ok

/-- A mount answers from the device's own states, and a sweep acts on the disk's states and
leaves none, exactly when the matching finds no others. -/
theorem mountRecords_matched (kept : WellKept states) :
    (AnswersOwn paths states dev ↔ OwnMatches paths states dev) ∧
      (SweepsExactly paths.realpath states disk ↔ disk = [] ∨
        SweepClean paths.realpath (wholeTarget paths.realpath disk) (OfDisk paths.realpath disk) 32
          states) :=
  ⟨answersOwn_iff kept, sweepsExactly_iff kept⟩

end Matching

/-! ### Two slices of a disk -/

section Slices

/-- The second slice of the disk, mounted by the system. -/
def secondSlice : MountState :=
  ⟨7, diskutilKind, 0, "/dev/disk5s2".toList, "/dev/disk5s2".toList, "/Volumes/B".toList,
    "/Volumes/B".toList, [], [], 0⟩

def sliceStates : StateDir := [(7, secondSlice.text)]

/-- Both slices are there. -/
def slicePaths : Paths := ⟨some, fun _ => .ok (.device "disk5".toList)⟩

theorem sliceStates_read {st : MountState} :
    Readable sliceStates st ↔ st = secondSlice := by
  have plain : secondSlice.Plain := {
    kind := ⟨.of_all (by decide), by decide, by decide⟩
    pid := ⟨0, rfl⟩
    dev := .of_all (by decide)
    canonDev := .of_all (by decide)
    mnt := .of_all (by decide)
    canonMnt := .of_all (by decide)
    attachedDisk := ⟨.of_all (by decide), by decide⟩
    pidfile := .of_all (by decide)
    createdDir := ⟨0, rfl⟩ }
  have read := readMountStateFile_text plain 7
  constructor
  · rintro ⟨file, inside, same⟩
    cases List.mem_singleton.mp inside
    exact (Option.some.inj (read.symm.trans same)).symm
  · rintro rfl
    exact ⟨_, List.mem_cons_self, read⟩

theorem sliceStates_kept : WellKept sliceStates where
  names := List.nodup_singleton _
  canonDev := by
    intro st readable
    cases sliceStates_read.mp readable
    exact ⟨by decide, by decide, by decide⟩
  mnt := by
    intro st readable
    cases sliceStates_read.mp readable
    decide
  pid := by
    intro st readable nfs
    cases sliceStates_read.mp readable
    exact absurd nfs (by decide)

theorem mountRecords_matched_slices :
    (AnswersOwn slicePaths sliceStates "/dev/disk5s2".toList ↔
        OwnMatches slicePaths sliceStates "/dev/disk5s2".toList) ∧
      (SweepsExactly slicePaths.realpath sliceStates "/dev/disk5".toList ↔
        "/dev/disk5".toList = [] ∨ SweepClean slicePaths.realpath
          (wholeTarget slicePaths.realpath "/dev/disk5".toList)
          (OfDisk slicePaths.realpath "/dev/disk5".toList) 32 sliceStates) :=
  mountRecords_matched sliceStates_kept

/-- A mount of the disk is a mount of its first slice, and is answered from the second one. -/
theorem wholeDisk_otherSlice :
    ¬ AnswersOwn slicePaths sliceStates "/dev/disk5".toList := by
  intro own
  have fits : matchesTarget slicePaths.realpath "/dev/disk5".toList secondSlice = true := by
    decide +kernel
  have mountable : Mountable slicePaths "/dev/disk5".toList := ⟨by decide, _, rfl, rfl⟩
  have same := (answersOwn_iff sliceStates_kept).mp own mountable secondSlice
    (sliceStates_read.mpr rfl) (Or.inr fits)
  have first : slicePaths.device "/dev/disk5".toList = "/dev/disk5s1".toList := by decide +kernel
  rw [first] at same
  exact absurd same (by decide)

end Slices

end Rufux.Macos
