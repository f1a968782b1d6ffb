import Rufux.Library.Run
import Rufux.Mountd.Namespace

/-!
The namespace stays a tree: every live directory is reached from the root by one path, and
its `..` names the directory that holds it. A RENAME of a directory below itself is the one
request that could break this, and the checks of `ntfs_op_rename` and `ext_op_rename` do not
look for it.
-/

namespace Rufux.Mountd

open Rufux.Library

/-- The graph with `..` as the server answers it, from the parent cache or a FILE_NAME
attribute. -/
def NtfsMount.graph (mount : NtfsMount) : DirGraph UcsName where
  node ino := (mount.volume.record ino).map fun record =>
    if record.isDir then .dir (Volume.up (.ntfs mount) ino) else .leaf record.fileNames.length
  bind := mount.volume.graph.bind

def Volume.IsTree : Volume → Prop
  | .ntfs mount => mount.volume.graph.IsTree fileRoot ∧ mount.graph.IsTree fileRoot
  | .ext volume => volume.graph.IsTree extRootIno

/-- A volume on which nothing is wrong. On NTFS the parent cache tells the truth, as the
empty one does. -/
def Volume.WellRooted : Volume → Prop
  | .ntfs mount => mount.Tidy ∧ mount.volume.graph.Tree fileRoot
  | .ext volume => volume.Tidy ∧ volume.graph.Tree extRootIno

/-- Nothing on the volume changed; the parent cache is not on it. -/
def Volume.SameDisk : Volume → Volume → Prop
  | .ntfs before, .ntfs after => after.volume = before.volume
  | .ext before, .ext after => after = before
  | _, _ => False

/-- The name checks of RENAME. -/
def acceptsName (server : Server) (volume : Volume) (name : Name) : Bool :=
  match volume with
  | .ntfs _ => (ntfsUtf8ToUcs server.lib name).isOk
  | .ext _ => validLeafName name && decide (name.length ≤ 255)

def Volume.EmptyDir (volume : Volume) (number : Nat) : Prop :=
  volume.isDirectory number = true ∧
    match volume with
    | .ntfs mount => mount.volume.entries number = []
    | .ext volume => volume.entries number = []

/-- A RENAME of a directory below itself that the checks let through: the target name is
free, or names an empty directory, which is then removed. On NTFS `ntfs_link` refuses the
directory itself as the target directory, and metadata files are not removed. -/
structure EntersItself (server : Server) (volume : Volume) (fromDir : Nat) (fromName : Name)
    (toDir : Nat) (toName : Name) (number : Nat) : Prop
    extends OwnSubtree server volume fromDir fromName toDir number where
  fromResolves : volume.resolves fromDir = true
  toResolves : volume.resolves toDir = true
  toIsDir : volume.isDirectory (volume.number toDir) = true
  fromAccepted : acceptsName server volume fromName = true
  toAccepted : acceptsName server volume toName = true
  target : match boundTo server volume toDir toName with
    | none => volume.isNtfs = true → number ≠ volume.number toDir
    | some replaced => replaced ≠ number ∧ volume.EmptyDir replaced ∧
        (volume.isNtfs = true → fileFirstUser ≤ replaced)

def Request.EntersItself (server : Server) (volume : Volume) : Request → Prop
  | .rename fromFh fromName toFh toName =>
      ∃ fromDir toDir number, xdrGetFh fromFh = some fromDir ∧ xdrGetFh toFh = some toDir ∧
        Mountd.EntersItself server volume fromDir fromName toDir toName number
  | _ => False

section Ext

variable {server : Server} {calls : ExtCalls} {volume : ExtVolume} {fromDir toDir number : Nat}
  {fromName toName : Name}

theorem extRename_ownSubtree_refused (whole : calls.Whole) (tree : volume.graph.Tree extRootIno)
    (own : OwnSubtree server (.ext volume) fromDir fromName toDir number)
    (stopped : ¬ EntersItself server (.ext volume) fromDir fromName toDir toName number) :
    (extOpRename server.config calls volume fromDir fromName toDir toName).1.status ≠ .ok ∧
      (extOpRename server.config calls volume fromDir fromName toDir toName).2 = volume := by
  have source : volume.graph.bind fromDir fromName = some number := own.source
  rcases extOpRename_cases server.config calls volume fromDir toDir fromName toName with
    ⟨unchanged, granted⟩ | ⟨ino, removes, left, goes⟩
  · refine ⟨fun succeeded => ?_, unchanged⟩
    obtain ⟨-, -, ino, sourceFound, targetFound⟩ := granted succeeded
    have same : number = ino := Option.some.inj (source.symm.trans sourceFound)
    exact tree.not_holds_above own.isDir own.below ⟨toName, same ▸ targetFound⟩
  · refine absurd ?_ stopped
    have found := (ext2fsLookup_ok goes.fromLeaf goes.sourceLookup).2
    have same : ino = number := Option.some.inj (found.symm.trans source)
    subst same
    obtain ⟨-, -, -, -, -, fromQuiet⟩ := extReadValidInode_ok goes.fromValid
    obtain ⟨-, -, -, -, -, toQuiet⟩ := extReadValidInode_ok goes.toValid
    have fromValid := goes.fromValid
    have toValid := goes.toValid
    rw [fromQuiet] at fromValid
    rw [toQuiet] at toValid
    refine { toOwnSubtree := own, fromResolves := ?_, toResolves := ?_, toIsDir := goes.toIsDir,
             fromAccepted := ?_, toAccepted := ?_, target := ?_ }
    · simp only [Volume.resolves, fromValid]
      rfl
    · simp only [Volume.resolves, toValid]
      rfl
    · simp [acceptsName, goes.fromLeaf, goes.fromShort]
    · simp [acceptsName, goes.toLeaf, goes.toShort]
    · rcases goes.target with ⟨-, -, missing⟩ | ⟨-, replaced, targetFound, different, -, kinds, removed, -⟩
      · have free := ext2fsLookup_missing goes.toLeaf (whole.lookup .target) missing
        simp only [boundTo, free, Volume.isNtfs]
        rintro ⟨⟩
      · have bound := (ext2fsLookup_ok goes.toLeaf targetFound).2
        have isDir := (isDir_of_graph own.isDir).2
        rw [isDir] at kinds
        rw [← kinds] at removed
        simp only [extRemoveTarget, if_true] at removed
        obtain ⟨again, -, -, -, -, -, -, empty, located, -⟩ := extOpRmdir_ok_cases removed
        have sameTarget : again = replaced := Option.some.inj (located.symm.trans bound)
        simp only [boundTo, bound, Volume.isNtfs]
        exact ⟨different, ⟨kinds.symm, sameTarget ▸ empty⟩, by rintro ⟨⟩⟩

end Ext

section Ntfs

variable {server : Server} {calls : NtfsCalls} {mount : NtfsMount} {fromDir toDir number : Nat}
  {fromName toName : Name}

theorem NtfsRenameGoes.resolves {fu tu : UcsName} {removes : Bool} {left : NtfsMount}
    (goes : NtfsRenameGoes server.config server.lib calls mount fromDir fromName toDir toName fu tu
      number removes left) :
    Volume.resolves (.ntfs mount) fromDir = true ∧ Volume.resolves (.ntfs mount) toDir = true ∧
      Volume.isDirectory (.ntfs mount) (mref toDir) = true := by
  obtain ⟨fromRecord, fromOpens, -⟩ := goes.fromGot
  obtain ⟨toRecord, toOpens, toIsDir⟩ := goes.toGot
  obtain ⟨-, fromPresent, fromSequence⟩ := ntfsInodeOpen_ok fromOpens
  obtain ⟨-, toPresent, toSequence⟩ := ntfsInodeOpen_ok toOpens
  refine ⟨?_, ?_, ?_⟩
  · simp only [Volume.resolves, ntfsInodeOpen_of_record fromPresent fromSequence]
    rfl
  · simp only [Volume.resolves, ntfsInodeOpen_of_record toPresent toSequence]
    rfl
  · simp [Volume.isDirectory, toPresent, toIsDir]

theorem ntfsRename_ownSubtree_refused (tidy : mount.Tidy)
    (tree : mount.volume.graph.Tree fileRoot)
    (own : OwnSubtree server (.ntfs mount) fromDir fromName toDir number)
    (stopped : ¬ EntersItself server (.ntfs mount) fromDir fromName toDir toName number) :
    (ntfsOpRename server.config server.lib calls mount fromDir fromName toDir toName).1.status ≠ .ok ∧
      (ntfsOpRename server.config server.lib calls mount fromDir fromName toDir toName).2.volume =
        mount.volume := by
  rcases ntfsOpRename_cases server.config server.lib calls mount fromDir toDir fromName toName with
    ⟨unchanged, granted⟩ | ⟨fu, tu, ino, removes, left, goes⟩
  · refine ⟨fun succeeded => ?_, unchanged⟩
    obtain ⟨fu, tu, ino, fromLegal, -, sourceFound, targetFound⟩ := granted succeeded
    have source := own.source
    simp only [boundTo, fromLegal] at source
    have same : number = ino := Option.some.inj (source.symm.trans sourceFound)
    exact absurd ⟨tu, same ▸ targetFound⟩ (tree.not_holds_above own.isDir own.below)
  have source := own.source
  simp only [boundTo, goes.fromLegal] at source
  obtain ⟨attr, sourceFound, target⟩ := goes.found
  obtain ⟨bound, -, record, present, sourceType⟩ := ntfsOpLookup_ok goes.fromLegal sourceFound
  have same : ino = number := Option.some.inj (bound.symm.trans source)
  subst same
  obtain ⟨fromResolves, toResolves, toIsDir⟩ := goes.resolves
  have enters (target : match boundTo server (.ntfs mount) toDir toName with
      | none => Volume.isNtfs (.ntfs mount) = true → ino ≠ Volume.number (.ntfs mount) toDir
      | some replaced => replaced ≠ ino ∧ Volume.EmptyDir (.ntfs mount) replaced ∧
          (Volume.isNtfs (.ntfs mount) = true → fileFirstUser ≤ replaced)) : False :=
    stopped { toOwnSubtree := own, fromResolves := fromResolves, toResolves := toResolves,
              toIsDir := toIsDir, fromAccepted := by simp [acceptsName, goes.fromLegal, Except.isOk, Except.toBool],
              toAccepted := by simp [acceptsName, goes.toLegal, Except.isOk, Except.toBool], target := target }
  have sourceVolume := ntfsOpLookup_volume server.config server.lib (calls.within .source) mount
    fromDir fromName
  have targetVolume := ntfsOpLookup_volume server.config server.lib (calls.within .target)
    (ntfsOpLookup server.config server.lib (calls.within .source) mount fromDir fromName).2 toDir
    toName
  rw [sourceVolume] at targetVolume
  rcases target with ⟨-, rfl, -⟩ | ⟨-, replaced, targetAttr, located, different, kinds, removed, -⟩
  · obtain ⟨fromPre, toPre, moves⟩ := goes.moves
    rw [moves]
    have linked {after : NtfsVolume} (done : ntfsLinkStep calls (ntfsOpLookup server.config server.lib
        (calls.within .target) (ntfsOpLookup server.config server.lib (calls.within .source) mount
          fromDir fromName).2 toDir toName).2.volume toDir tu ino = .ok after) : False := by
      unfold ntfsLinkStep at done
      split at done
      · cases done
      rw [targetVolume] at done
      obtain ⟨-, apart, free, -⟩ := ntfsLink_ok done
      apply enters
      simp only [boundTo, goes.toLegal, free]
      exact fun _ => apart
    rcases ntfsMoveEntry_cases server.config calls _ fromDir toDir fu tu ino fromPre toPre with
      ⟨-, -, refused, unchanged⟩ | ⟨after, -, linkDone, -⟩ | ⟨after, -, linkDone, -⟩
    · exact ⟨refused, by rw [unchanged, targetVolume]⟩
    · exact (linked linkDone).elim
    · exact (linked linkDone).elim
  · refine (enters ?_).elim
    obtain ⟨targetBound, -, -, -, -⟩ := ntfsOpLookup_ok goes.toLegal located
    rw [sourceVolume] at targetBound
    have isDir : targetAttr.type = .dir := by
      obtain ⟨up, known⟩ := own.isDir
      have plain := tidy.volume.plain_of_bound source
      rw [mref_of_lt plain] at present
      simp only [NtfsVolume.graph, present, Option.map_some, NtfsRecord.node] at known
      split at known
      · rename_i directory
        exact kinds.mp (sourceType.mpr directory)
      · cases known
    obtain ⟨dirNi, again, cino, child, -, -, againLegal, againBound, user, childOpens, childKind, deleted⟩ :=
      ntfsOpUnlinkCommon_ok_cases removed
    rw [goes.toLegal] at againLegal
    cases againLegal
    rw [targetVolume] at againBound childOpens deleted
    have sameTarget : cino = replaced := Option.some.inj (againBound.symm.trans targetBound)
    subst sameTarget
    have childPresent := (ntfsInodeOpen_ok childOpens).2.1
    rw [mref_of_lt (tidy.volume.plain_of_bound targetBound)] at childPresent
    have directory : child.isDir = true := by simpa [isDir] using childKind
    obtain ⟨node, ⟨-, empty, -⟩, -⟩ := (@ntfsDelete_leaves False) tidy.volume deleted
    simp only [boundTo, goes.toLegal, targetBound]
    refine ⟨different, ⟨?_, ?_⟩, fun _ => user⟩
    · simp [Volume.isDirectory, childPresent, directory]
    · exact eq_nil_of_findEntry fun name => empty (ntfsIsDir_graph childPresent directory) name

/-- With nothing failing, `..` of a live directory is answered with the directory that holds it. -/
theorem ntfsUp_holds (tidy : mount.Tidy) {record : NtfsRecord}
    (known : mount.volume.record number = some record) (directory : record.isDir = true)
    (notRoot : number ≠ fileRoot) :
    mount.volume.graph.Holds (Volume.up (.ntfs mount) number) number := by
  have answered := (@ntfsResolveParentIno_answers (.quiet 0)) rfl tidy.volume known directory
    notRoot
  have holds := ntfsResolveParentIno_holds tidy known notRoot (ntfsIsDir_graph known directory)
    answered
  simp only [Volume.up, known]
  exact holds

theorem ntfs_isTree (tidy : mount.Tidy) (tree : mount.volume.graph.Tree fileRoot) :
    Volume.IsTree (.ntfs mount) := by
  refine ⟨tree.isTree, fun number up known notRoot => ?_⟩
  simp only [NtfsMount.graph, Option.map_eq_some_iff] at known
  obtain ⟨record, present, node⟩ := known
  split at node
  swap
  · cases node
  rename_i directory
  cases node
  obtain ⟨paths, name, places⟩ := tree.isTree number record.parent
    (by simp [NtfsVolume.graph, present, NtfsRecord.node, directory]) notRoot
  have walks (start : Nat) (path : List UcsName) :
      mount.graph.walk start path = mount.volume.graph.walk start path := by
    induction path generalizing start with
    | nil => rfl
    | cons first rest ih =>
        simp only [DirGraph.walk, ih]
        rfl
  refine ⟨?_, name, ?_⟩
  · simpa only [walks] using paths
  · obtain ⟨held, bound⟩ := ntfsUp_holds tidy present directory notRoot
    rw [((places _ held).mp bound).1]
    exact places

end Ntfs

section Run

variable {server : Server} {volume : Volume}

theorem Volume.WellRooted.tidy (wellRooted : volume.WellRooted) : volume.Tidy := by
  cases volume <;> exact wellRooted.1

theorem Volume.WellRooted.isTree (wellRooted : volume.WellRooted) : volume.IsTree := by
  cases volume with
  | ntfs mount => exact ntfs_isTree wellRooted.1 wellRooted.2
  | ext volume => exact wellRooted.2.isTree

theorem Volume.WellRooted.edited {after : Volume} {asked : Nat} (wellRooted : volume.WellRooted)
    (edited : Volume.Edited True asked volume after) : after.WellRooted := by
  cases volume <;> cases after
  · exact ⟨NtfsMount.Edited.tidy edited, wellRooted.2.edits (NtfsMount.Edited.edits edited)⟩
  · exact edited.elim
  · exact edited.elim
  · exact ⟨ExtVolume.Edited.tidy edited, wellRooted.2.edits (ExtVolume.Edited.edits edited)⟩

/-- Where the disk is as before, no directory has moved. -/
theorem Volume.Edited.of_sameDisk {after : Volume} {asked : Nat}
    (edited : Volume.Edited False asked volume after) (same : volume.SameDisk after) :
    Volume.Edited True asked volume after := by
  cases volume <;> cases after
  · refine ⟨NtfsMount.Edited.tidy edited, ?_, NtfsMount.Edited.keys edited⟩
    rw [show _ = _ from same]
    exact .refl True _
  · exact edited.elim
  · exact edited.elim
  · rw [show _ = _ from same]
    refine ⟨?_, .refl True _⟩
    rw [← show _ = _ from same]
    exact ExtVolume.Edited.tidy edited

/-- A RENAME of a directory below itself is refused unless it is one that the checks let
through. -/
theorem ownSubtree_refused {exchange : Exchange} (wellRooted : volume.WellRooted)
    (whole : exchange.calls.Whole volume) (stopped : ¬ exchange.request.EntersItself server volume)
    (own : exchange.request.OwnSubtree server volume) :
    (server.reply volume exchange).status ≠ .ok ∧
      volume.SameDisk (server.step volume exchange) := by
  obtain ⟨request, calls⟩ := exchange
  cases request with
  | rename fromFh fromName toFh toName =>
      obtain ⟨fromDir, toDir, number, fromDecoded, toDecoded, below⟩ := own
      have kept : ¬ EntersItself server volume fromDir fromName toDir toName number :=
        fun enters => stopped ⟨fromDir, toDir, number, fromDecoded, toDecoded, enters⟩
      unfold Server.reply Server.step
      simp only [handleProc, fromDecoded, toDecoded]
      cases volume with
      | ntfs mount => exact ntfsRename_ownSubtree_refused wellRooted.1 wellRooted.2 below kept
      | ext volume => exact extRename_ownSubtree_refused whole wellRooted.2 below kept
  | _ => exact own.elim

theorem step_wellRooted {exchange : Exchange} (wellRooted : volume.WellRooted)
    (whole : exchange.calls.Whole volume) (stopped : ¬ exchange.request.EntersItself server volume) :
    (server.step volume exchange).WellRooted := by
  by_cases own : exchange.request.OwnSubtree server volume
  · have edited : Volume.Edited False exchange.request.asked volume (server.step volume exchange) :=
      handleProc_edited whole wellRooted.tidy exchange.request fun impossible => impossible.elim
    exact wellRooted.edited (edited.of_sameDisk
      (ownSubtree_refused wellRooted whole stopped own).2)
  · have edited : Volume.Edited True exchange.request.asked volume (server.step volume exchange) :=
      handleProc_edited whole wellRooted.tidy exchange.request fun _ => own
    exact wellRooted.edited edited

end Run

/-- In a run without a RENAME that moves a directory below itself past the checks, every
state is a tree and each RENAME of a directory below itself is refused. -/
theorem namespace_staysTree (server : Server) (volume : Volume) (run : List Exchange)
    (wellRooted : volume.WellRooted)
    (proper : Steps server.step (fun state exchange => exchange.calls.Whole state ∧
      ¬ exchange.request.EntersItself server state) volume run) :
    (run.foldl server.step volume).IsTree ∧
      Steps server.step (fun state exchange => exchange.request.OwnSubtree server state →
        (server.reply state exchange).status ≠ .ok ∧
          state.SameDisk (server.step state exchange)) volume run := by
  have kept (state : Volume) (exchange : Exchange) (wellRooted : state.WellRooted)
      (met : exchange.calls.Whole state ∧ ¬ exchange.request.EntersItself server state) :
      (server.step state exchange).WellRooted := step_wellRooted wellRooted met.1 met.2
  constructor
  · exact (proper.invariant kept wellRooted).isTree
  · exact proper.strengthen (fun state exchange wellRooted met =>
      ⟨kept state exchange wellRooted met, ownSubtree_refused wellRooted met.1 met.2⟩) wellRooted

def freshExt : Volume := .ext .fresh

theorem freshExt_wellRooted : freshExt.WellRooted := by
  have unbound (dir : Nat) (name : Name) : ExtVolume.fresh.graph.bind dir name = none := rfl
  have onlyRoot (number : Nat) (isDir : ExtVolume.fresh.graph.IsDir number) :
      number = extRootIno := by
    obtain ⟨-, directory⟩ := isDir_of_graph isDir
    by_contra other
    simp [ExtVolume.fresh, other, ExtInode.isDir, ExtInode.zero] at directory
  have free (number links : Nat) (known : ExtVolume.fresh.graph.node number = some (.leaf links)) :
      links = 0 := by
    by_cases same : number = extRootIno
    · have root : ExtVolume.fresh.graph.node extRootIno = some (.dir extRootIno) := by decide
      rw [same, root] at known
      cases known
    · have blank : ExtVolume.fresh.inode number = .zero := by simp [ExtVolume.fresh, same]
      simp only [ExtVolume.graph, blank] at known
      split at known
      · cases known
        rfl
      · cases known
  have held : ExtVolume.fresh.graph.WellHeld extRootIno :=
    { rootDir := ⟨extRootIno, by decide⟩
      holders := fun dir name number bound => absurd (unbound dir name ▸ bound) (by simp)
      targets := fun dir name number bound => absurd (unbound dir name ▸ bound) (by simp)
      rootless := fun dir name bound => absurd (unbound dir name ▸ bound) (by simp)
      held := fun number up known other => absurd (onlyRoot number ⟨up, known⟩) other
      counted := fun number links known => .inl (free number links known) }
  refine ⟨⟨fun _ => List.nodup_nil, fun number links known => ?_, held⟩, ⟨held, ?_⟩⟩
  · rw [free number links known]
    decide
  · intro number isDir
    rw [onlyRoot number isDir]
    exact .root

theorem Calls.whole_quiet (number : Nat) (volume : Volume) : (Calls.quiet number).Whole volume := by
  cases volume with
  | ntfs mount => exact ⟨rfl, rfl, rfl⟩
  | ext volume => exact ⟨fun _ => rfl, rfl, rfl, rfl, rfl⟩

/-- MKDIR of `a` in the root, which gets inode 12. -/
def makeA : Exchange where
  request := .mkdir (xdrPutFh extRootIno) [97] .empty
  calls := .quiet 12

/-- RENAME of `a` to the name `b` in `a` itself. -/
def moveIntoItself : Exchange where
  request := .rename (xdrPutFh extRootIno) [97] (xdrPutFh 12) [98]
  calls := .quiet 13

/-- What the two requests leave: inode 12 holds its own entry, and the root holds none. -/
theorem moveIntoItself_leaves :
    ∃ left : ExtVolume, [makeA, moveIntoItself].foldl Server.plain.step freshExt = .ext left ∧
      left.entries extRootIno = [] ∧ left.graph.node 12 = some (.dir 12) := by
  refine ⟨_, rfl, ?_, ?_⟩
  · decide
  · decide

theorem moveIntoItself_leaves_tree :
    freshExt.WellRooted ∧ (∀ exchange ∈ [makeA, moveIntoItself], exchange.calls.NoFault) ∧
      ¬ ([makeA, moveIntoItself].foldl Server.plain.step freshExt).IsTree := by
  refine ⟨freshExt_wellRooted, ?_, ?_⟩
  · intro exchange member
    simp only [List.mem_cons, List.not_mem_nil, or_false] at member
    rcases member with rfl | rfl
    · exact ⟨fun _ => rfl, fun _ => rfl⟩
    · exact ⟨fun _ => rfl, fun _ => rfl⟩
  · obtain ⟨left, after, rootless, node⟩ := moveIntoItself_leaves
    rw [after]
    intro tree
    obtain ⟨⟨path, reached, -⟩, -⟩ := tree 12 12 node (by decide)
    cases path with
    | nil => cases reached
    | cons name rest =>
        simp only [DirGraph.walk, ExtVolume.graph, rootless, findEntry] at reached
        cases reached

/-- RENAME of `a` to `b` in the root. -/
def renameA : Exchange where
  request := .rename (xdrPutFh extRootIno) [97] (xdrPutFh extRootIno) [98]
  calls := .quiet 13

theorem makeA_leaves :
    ∃ made : ExtVolume, Server.plain.step freshExt makeA = .ext made ∧ made.entries 12 = [] ∧
      findEntry (made.entries extRootIno) [97] = some 12 := by
  refine ⟨_, rfl, ?_, ?_⟩
  · decide
  · decide

theorem renameA_staysOut :
    ¬ renameA.request.EntersItself .plain (Server.plain.step freshExt makeA) := by
  rintro ⟨fromDir, toDir, number, fromDecoded, toDecoded, enters⟩
  have root : xdrGetFh (xdrPutFh extRootIno) = some extRootIno := by decide
  obtain rfl : extRootIno = fromDir := Option.some.inj (root.symm.trans fromDecoded)
  obtain rfl : extRootIno = toDir := Option.some.inj (root.symm.trans toDecoded)
  have source := enters.source
  have below := enters.below
  obtain ⟨made, after, empty, bound⟩ := makeA_leaves
  rw [after] at source below
  simp only [boundTo, bound, Option.some.injEq] at source
  subst source
  rcases Relation.ReflTransGen.cases_head below with same | ⟨next, ⟨name, held⟩, -⟩
  · exact absurd (show 12 = extRootIno from same) (by decide)
  · simp only [ExtVolume.graph, empty, findEntry] at held
    cases held

theorem namespace_staysTree_renamed :
    ([makeA, renameA].foldl Server.plain.step freshExt).IsTree ∧
      Steps Server.plain.step (fun state exchange =>
        exchange.request.OwnSubtree .plain state →
          (Server.plain.reply state exchange).status ≠ .ok ∧
            state.SameDisk (Server.plain.step state exchange)) freshExt [makeA, renameA] :=
  namespace_staysTree .plain freshExt [makeA, renameA] freshExt_wellRooted
    ⟨⟨Calls.whole_quiet 12 _, fun enters => enters⟩, ⟨Calls.whole_quiet 13 _, renameA_staysOut⟩, trivial⟩

end Rufux.Mountd
