import Rufux.Macos.MountSafety

/-!
Whole sequences of commands and outside events: daemons are not cut off and signals reach own
daemons only, as long as state files say what was written to them and keep naming the same
processes. A line break in a path or a reused process id is enough to break either.
-/

namespace Rufux.Macos

open Library

section Runs

variable {watched : Prop} {world : World} {event : MountEvent} {mounts : List Mount}
  {strangers : List Stranger} {events : List MountEvent}

theorem sound_boot : Sound watched (World.boot mounts strangers) :=
  ⟨nofun, List.Pairwise.nil, nofun⟩

/-- One command or outside event keeps the invariant. -/
theorem step_spec (sound : Sound watched world) (notRecycled : NotRecycled world event)
    (faithful : Faithful event) (followed : watched → Watched event) :
    Sound watched (world.step event) ∧ (watched → Careful world event) := by
  cases event with
  | mount dev dryRun script => exact rufuxMount_spec sound faithful followed notRecycled
  | unmount dev dryRun script =>
      obtain ⟨kept, careful⟩ := rufuxUnmount_spec sound followed notRecycled
      exact ⟨kept, fun _ => careful⟩
  | outside mounts crashed strangers =>
      exact ⟨sound.calm (calm_ran fun _ inside => inside) notRecycled, fun _ => trivial⟩
  | reboot mounts strangers =>
      have calm : Calm strangers world (world.step (.reboot mounts strangers)) :=
        ⟨fun _ inside => inside, List.nil_sublist _, rfl, fun _ inside => Or.inr inside⟩
      exact ⟨sound.calm calm notRecycled, fun _ => trivial⟩
  | tidied order =>
      have fewer : ∀ file ∈ (world.step (.tidied order)).states, file ∈ world.states := by
        intro file inside
        obtain ⟨place, -, there⟩ := List.mem_filterMap.mp inside
        exact List.mem_of_getElem? there
      have calm : Calm [] world (world.step (.tidied order)) :=
        ⟨fewer, .refl _, rfl, fun _ inside => Or.inl inside⟩
      exact ⟨sound.calm calm fun _ _ _ => nofun, fun _ => trivial⟩

theorem run_spec
    (notRecycled : Steps World.step NotRecycled (World.boot mounts strangers) events)
    (faithful : ∀ event ∈ events, Faithful event)
    (followed : watched → ∀ event ∈ events, Watched event) :
    Sound watched (events.foldl World.step (World.boot mounts strangers)) ∧
      Steps World.step (fun world event => watched → Careful world event)
        (World.boot mounts strangers) events := by
  have met := notRecycled.with_forall fun event inside =>
    And.intro (faithful event inside) fun on : watched => followed on event inside
  refine ⟨met.invariant (fun world event sound step =>
    (step_spec sound step.1 step.2.1 step.2.2).1) sound_boot, ?_⟩
  exact met.strengthen (fun world event sound step =>
    step_spec sound step.1 step.2.1 step.2.2) sound_boot

/-- Over every sequence in which no named process id is reused: no daemon is told to end
while its mount point is an active mount, no two daemons serve one file, a mount answers from
the state of a daemon that runs and is mounted, and an unmount that fails at an active mount
point leaves state and daemon alone. -/
theorem mountLifeCycle
    (notRecycled : Steps World.step NotRecycled (World.boot mounts strangers) events)
    (faithful : ∀ event ∈ events, Faithful event) (followed : ∀ event ∈ events, Watched event) :
    NeverCut (events.foldl World.step (World.boot mounts strangers)) ∧
      OneServer (events.foldl World.step (World.boot mounts strangers)) ∧
      Steps World.step Careful (World.boot mounts strangers) events := by
  obtain ⟨sound, careful⟩ := @run_spec True _ _ _ notRecycled faithful fun _ => followed
  refine ⟨?_, sound.servers, careful.mono fun _ _ kept => kept trivial⟩
  intro signal inside daemon received
  obtain ⟨other, same, -, unmounted⟩ := sound.signals signal inside
  rw [received] at same
  cases same
  exact unmounted trivial

/-- Signals reach the daemons of the states that name them, and new daemons that have not
come up, over every sequence in which no process takes over the id that a state file names. -/
theorem ownDaemonsOnly
    (notRecycled : Steps World.step NotRecycled (World.boot mounts strangers) events)
    (faithful : ∀ event ∈ events, Faithful event) :
    OwnOnly (events.foldl World.step (World.boot mounts strangers)) := by
  obtain ⟨sound, -⟩ := @run_spec False _ _ _ notRecycled faithful False.elim
  intro signal inside
  obtain ⟨daemon, received, started, -⟩ := sound.signals signal inside
  exact ⟨daemon, received, started⟩

end Runs

/-! ### Runs on images -/

section Images

def openSight : Sight := ⟨some, true, true, fun _ => true⟩

def leaves (mounts : List Mount) : Answer := ⟨true, [], mounts, [], []⟩

def exitsAtOnce : Ending := ⟨true, [], true⟩

def noMount : OsUnmount := ⟨openSight, leaves [], openSight, leaves []⟩

def exportAt (mnt : CString) : Mount := ⟨mnt, "127.0.0.1:/".toList, false, "nfs".toList⟩

/-- An export mounted at the directory that was given. -/
def mountsThere (mounts : List Mount) : NfsAnswer :=
  ⟨leaves mounts, fun dir => if dir = [] then none else some dir⟩

/-- A new daemon whose export comes on top of the mounts that there are. -/
def launchOver (pid : Int) (file : Nat) (mounts : List Mount) : Launch where
  forks := true
  pid
  file
  start := .ready
  unstarted := exitsAtOnce
  first := mountsThere mounts
  second := mountsThere mounts
  unmounted := exitsAtOnce

/-- The mount of an image with an NTFS volume of that name. -/
def imageScript (name : CString) (pid : Int) (file : Nat) (mounts : List Mount) : MountScript where
  isBootDisk _ := false
  paths := ⟨some, fun _ => .ok .regular⟩
  stateDir := "/tmp/state".toList
  makesStateDir := true
  rounds := [⟨openSight, openSight, openSight, leaves [], openSight, exitsAtOnce, leaves [], true⟩]
  osSight := openSight
  osUnmount := noMount
  probe := ⟨true, false, noMount, true,
    List.replicate 3 0 ++ [78, 84, 70, 83, 32, 32, 32, 32] ++ List.replicate 501 0, some name⟩
  mountdFound := true
  osUnmountAgain := noMount
  place := ⟨none, true, fun _ => .made⟩
  launch := launchOver pid file mounts
  osUnmountLast := noMount
  relaunch := launchOver 99 file mounts
  resolveMnt _ := none
  write := .whole 0
  native := ⟨openSight, noMount, leaves [], openSight, leaves [], openSight, leaves []⟩

/-- An unmount that leaves those mounts. -/
def unmountScript (mounts : List Mount) : UnmountScript where
  isBootDisk _ := false
  find := openSight
  look := openSight
  umount := leaves mounts
  lookSecond := openSight
  diskutil := leaves mounts
  lookThird := openSight
  force := leaves mounts
  lookFourth := openSight
  lookLast := openSight
  ending := exitsAtOnce
  detach := leaves mounts
  detachForce := leaves mounts
  unmount := leaves mounts
  unmountForce := leaves mounts
  unlinks := true
  unmountDisk := leaves mounts
  unmountNode := leaves mounts
  unmountPath := leaves mounts

def volA : CString := "/Volumes/A".toList
def volB : CString := "/Volumes/B".toList

/-- Two images mounted and the first one unmounted again. -/
def twoImages : List MountEvent :=
  [.mount "/img/a".toList false (imageScript ['A'] 2 1 [exportAt volA]),
    .mount "/img/b".toList false (imageScript ['B'] 3 2 [exportAt volA, exportAt volB]),
    .unmount volA false (unmountScript [exportAt volB])]

theorem imageScript_faithful {name dev : CString} {pid : Int} {file : Nat} {mounts : List Mount}
    (path : PlainText dev)
    (canonDev : ∀ isDev, PlainText (canonDevice (imageScript name pid file mounts).paths dev isDev)) :
    (imageScript name pid file mounts).Faithful dev where
  write := by nofun
  path := path
  canonDev := canonDev
  stateDir := by
    change '\n' ∉ "/tmp/state".toList
    decide
  place := by nofun
  resolved := by nofun
  native := by nofun

theorem imageScript_watched {name : CString} {pid : Int} {file : Nat} {mounts : List Mount} :
    (imageScript name pid file mounts).Watched where
  lists := by
    intro round inside
    cases List.mem_singleton.mp inside
    rfl
  nfs := by
    intro nfs inside
    have honest : (mountsThere mounts).Honest fun _ => none := by
      refine ⟨nofun, ?_⟩
      intro dir mnt mounted
      unfold mountsThere at mounted
      dsimp only at mounted
      split at mounted
      · cases mounted
      · rename_i nonempty
        cases mounted
        exact ⟨nonempty, Or.inl rfl⟩
    rcases List.mem_cons.mp inside with rfl | rest
    · exact honest
    rcases List.mem_cons.mp rest with rfl | rest
    · exact honest
    rcases List.mem_cons.mp rest with rfl | rest
    · exact honest
    · cases List.mem_singleton.mp rest
      exact honest

theorem twoImages_orderly : Steps World.step NotRecycled (World.boot [] []) twoImages ∧
    (∀ event ∈ twoImages, Faithful event) ∧ ∀ event ∈ twoImages, Watched event := by
  refine ⟨by decide +kernel, ?_, ?_⟩
  · intro event inside
    simp only [twoImages, List.mem_cons, List.not_mem_nil, or_false] at inside
    rcases inside with rfl | rfl | rfl
    · exact imageScript_faithful (.of_all (by decide))
        fun isDev => .of_all (by cases isDev <;> decide +kernel)
    · exact imageScript_faithful (.of_all (by decide))
        fun isDev => .of_all (by cases isDev <;> decide +kernel)
    · trivial
  · intro event inside
    simp only [twoImages, List.mem_cons, List.not_mem_nil, or_false] at inside
    rcases inside with rfl | rfl | rfl
    · exact imageScript_watched
    · exact imageScript_watched
    · rfl

theorem mountLifeCycle_twoImages :
    NeverCut (twoImages.foldl World.step (World.boot [] [])) ∧
      OneServer (twoImages.foldl World.step (World.boot [] [])) ∧
      Steps World.step Careful (World.boot [] []) twoImages :=
  mountLifeCycle twoImages_orderly.1 twoImages_orderly.2.1 twoImages_orderly.2.2

theorem ownDaemonsOnly_twoImages : OwnOnly (twoImages.foldl World.step (World.boot [] [])) :=
  ownDaemonsOnly twoImages_orderly.1 twoImages_orderly.2.1

/-- The second image's path goes on with the line `pid=2`. -/
def injectedRun : List MountEvent :=
  [.mount "/img/a".toList false (imageScript ['A'] 2 1 [exportAt volA]),
    .mount "/img/b\npid=2".toList false (imageScript ['B'] 3 2 [exportAt volA, exportAt volB]),
    .unmount volB false (unmountScript [exportAt volA])]

def daemonA : Daemon := ⟨2, "/img/a".toList, 1, some volA⟩

/-- The unmount of the second image ends the daemon of the first one, which is mounted. -/
theorem injectedPid_cutsOff : ¬ ∀ mounts strangers (events : List MountEvent),
    Steps World.step NotRecycled (World.boot mounts strangers) events →
      NeverCut (events.foldl World.step (World.boot mounts strangers)) ∧
        OneServer (events.foldl World.step (World.boot mounts strangers)) ∧
        Steps World.step Careful (World.boot mounts strangers) events := by
  intro all
  have notRecycled : Steps World.step NotRecycled (World.boot [] []) injectedRun := by
    decide +kernel
  obtain ⟨never, -, -⟩ := all [] [] injectedRun notRecycled
  have signalled : ((injectedRun.foldl World.step (World.boot [] [])).signals.map fun signal =>
      (signal.receiver, signal.mounts)) = [(.daemon daemonA, [exportAt volA])] := by
    decide +kernel
  have among : (Receiver.daemon daemonA, [exportAt volA]) ∈
      (injectedRun.foldl World.step (World.boot [] [])).signals.map fun signal =>
        (signal.receiver, signal.mounts) := by
    rw [signalled]
    exact List.mem_cons_self
  obtain ⟨signal, inside, same⟩ := List.mem_map.mp among
  obtain ⟨received, mounts⟩ := Prod.mk.inj same
  refine never signal inside daemonA received volA rfl (exportAt volA) ?_ rfl
  rw [mounts]
  exact List.mem_cons_self

/-- The daemon crashes, and another process of the user gets its id. -/
def reusedRun : List MountEvent :=
  [.mount "/img/a".toList false (imageScript ['A'] 2 1 [exportAt volA]),
    .outside [] [2] [⟨2, true⟩], .unmount "/img/a".toList false (unmountScript [])]

theorem reusedPid_signalled : ¬ ∀ mounts strangers (events : List MountEvent),
    OwnOnly (events.foldl World.step (World.boot mounts strangers)) := by
  intro all
  have signalled : (reusedRun.foldl World.step (World.boot [] [])).signals.map (·.receiver) =
      [.stranger 2] := by
    decide +kernel
  have among : Receiver.stranger 2 ∈
      (reusedRun.foldl World.step (World.boot [] [])).signals.map (·.receiver) := by
    rw [signalled]
    exact List.mem_cons_self
  obtain ⟨signal, inside, received⟩ := List.mem_map.mp among
  obtain ⟨daemon, other, -⟩ := all [] [] reusedRun signal inside
  rw [received] at other
  cases other

end Images

end Rufux.Macos
