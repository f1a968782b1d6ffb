import Rufux.Mountd.Ntfs.Quiet

/-!
What each NTFS operation that edits a directory can do: the refusals that leave the volume
alone, and the course of one that succeeds.
-/

namespace Rufux.Mountd

open Rufux.Library NtfsVolume

/-- A link that succeeds adds one entry and one FILE_NAME attribute. -/
theorem ntfsLink_ok {fault : Option Errno} {calls : NtfsCalls} {volume linked : NtfsVolume}
    {ino dir : Nat} {name : UcsName}
    (succeeded : ntfsLink fault calls volume ino dir name = .ok linked) :
    fault = none ∧ ino ≠ dir ∧ findEntry (volume.entries dir) name = none ∧
      ∃ record, volume.record ino = some record ∧
        linked = (volume.setRecord ino (some { record with
          fileNames := record.fileNames ++ [(dir, name)] })).setEntries dir
            (insertEntry calls.arrange (volume.entries dir) name ino) := by
  unfold ntfsLink at succeeded
  split at succeeded
  · cases succeeded
  · split at succeeded
    · cases succeeded
    · rename_i different
      split at succeeded
      · cases succeeded
      · rename_i free
        split at succeeded
        · cases succeeded
        · rename_i record present
          cases succeeded
          exact ⟨rfl, different, by simpa using free, record, present, rfl⟩

/-- A delete that succeeds takes one entry and one FILE_NAME attribute away, and frees the
record with its last. -/
theorem ntfsDelete_ok {fault : Option Errno} {calls : NtfsCalls} {volume left : NtfsVolume}
    {ino dir : Nat} {name : UcsName}
    (succeeded : ntfsDelete fault calls volume ino dir name = .ok left) :
    fault = none ∧ (⟨name, ino⟩ : DirEntry UcsName) ∈ volume.entries dir ∧
      ∃ record, volume.record ino = some record ∧
        left.entries = Function.update volume.entries dir
          (rearrange calls.arrange ((volume.entries dir).erase ⟨name, ino⟩)) ∧
        left.mftRecords = volume.mftRecords ∧ left.hasSync = volume.hasSync ∧
        ((record.fileNames.erase (dir, name) = [] ∧
            (record.isDir = true → volume.entries ino = []) ∧
            left.record = Function.update volume.record ino none) ∨
          (record.fileNames.erase (dir, name) ≠ [] ∧ left.sequence = volume.sequence ∧
            left.record = Function.update volume.record ino
              (some { record with fileNames := record.fileNames.erase (dir, name) }))) := by
  unfold ntfsDelete at succeeded
  split at succeeded
  · cases succeeded
  · split at succeeded
    · cases succeeded
    · rename_i present
      split at succeeded
      · cases succeeded
      · rename_i record found
        simp only at succeeded
        split at succeeded
        · cases succeeded
        · rename_i notFull
          cases succeeded
          refine ⟨rfl, by simpa using present, record, found, ?_⟩
          by_cases last : record.fileNames.erase (dir, name) = []
          · rw [if_pos last]
            refine ⟨by simp, by simp, by simp, .inl ⟨last, ?_, by simp⟩⟩
            intro isDir
            by_contra full
            exact notFull ⟨isDir, last, full⟩
          · rw [if_neg last]
            exact ⟨by simp, by simp, by simp, .inr ⟨last, by simp, by simp⟩⟩

theorem ntfsUtf8ToUcs_leaf {lib : NtfsLib} {name : Name} {ucs : UcsName}
    (legal : ntfsUtf8ToUcs lib name = .ok ucs) : validLeafName name = true := by
  unfold ntfsUtf8ToUcs at legal
  split at legal
  · cases legal
  · rename_i leaf
    simpa using leaf

theorem ntfsUtf8ToUcs_error_ne_ok {lib : NtfsLib} {name : Name} {status : Nfsstat}
    (illegal : ntfsUtf8ToUcs lib name = .error status) : status ≠ .ok := by
  unfold ntfsUtf8ToUcs at illegal
  repeat' split at illegal
  all_goals cases illegal
  all_goals decide

section Lookup

variable {config : Config} {lib : NtfsLib} {calls : NtfsCalls} {mount found : NtfsMount}
  {dirIno : Nat} {name : Name}

theorem ntfsOpLookup_volume (config : Config) (lib : NtfsLib) (calls : NtfsCalls)
    (mount : NtfsMount) (dirIno : Nat) (name : Name) :
    (ntfsOpLookup config lib calls mount dirIno name).2.volume = mount.volume := by
  unfold ntfsOpLookup
  repeat' split
  all_goals first | rfl | exact ntfsResolveParentIno_volume _ _ _ _

/-- A look-up of a legal name that succeeds found an entry and opened what it refers to. -/
theorem ntfsOpLookup_ok {cino : Nat} {attr : NfsAttr} {ucs : UcsName}
    (legal : ntfsUtf8ToUcs lib name = .ok ucs)
    (looked : (ntfsOpLookup config lib calls mount dirIno name).1 = .ok (cino, attr)) :
    findEntry (mount.volume.entries (mref dirIno)) ucs = some cino ∧
      (fileFirstUser ≤ cino ∨ cino = fileRoot) ∧
      ∃ record, mount.volume.record (mref cino) = some record ∧
        (attr.type = .dir ↔ record.isDir = true) := by
  have leaf := ntfsUtf8ToUcs_leaf legal
  obtain ⟨notDot, notDotdot⟩ := validLeafName_ne_dot leaf
  unfold ntfsOpLookup at looked
  split at looked
  · cases looked
  split at looked
  · cases looked
  split at looked
  · cases looked
  simp only [legal] at looked
  split at looked
  · cases looked
  rename_i number located
  split at looked
  · cases looked
  rename_i shown
  split at looked
  · cases looked
  rename_i record opened
  cases looked
  refine ⟨(ntfsLookupByName_ok located).2, by omega, record, (ntfsInodeOpen_ok opened).2.1, ?_⟩
  unfold ntfsFillAttr
  simp only
  cases record.isDir <;> simp
  split <;> simp

theorem ntfsOpGetattr_ok {role : NtfsRole} {volume : NtfsVolume} {ino : Nat} {attr : NfsAttr}
    (got : ntfsOpGetattr config calls role volume ino = .ok attr) :
    ∃ record, ntfsInodeOpen (calls.fault (.openInode role)) volume ino = .ok record ∧
      attr = ntfsFillAttr config (calls.fault (.fillAttr role)) ino record := by
  unfold ntfsOpGetattr at got
  split at got
  · cases got
  · rename_i record opened
    cases got
    exact ⟨record, opened, rfl⟩

end Lookup

theorem ntfsOpGetattr_error_ne_ok {config : Config} {calls : NtfsCalls} {role : NtfsRole}
    {volume : NtfsVolume} {ino : Nat} {status : Nfsstat}
    (failed : ntfsOpGetattr config calls role volume ino = .error status) : status ≠ .ok := by
  unfold ntfsOpGetattr at failed
  split at failed
  · rename_i code _
    cases failed
    split
    · decide
    · exact errnoToNfs3_ne_ok code
  · cases failed

theorem ntfsOpLookup_error_ne_ok {config : Config} {lib : NtfsLib} {calls : NtfsCalls}
    {mount : NtfsMount} {dirIno : Nat} {name : Name} {status : Nfsstat}
    (failed : (ntfsOpLookup config lib calls mount dirIno name).1 = .error status) :
    status ≠ .ok := by
  unfold ntfsOpLookup at failed
  split at failed
  · cases failed
    decide
  split at failed
  · cases failed
    decide
  split at failed
  · cases failed
    decide
  split at failed
  · cases failed
  split at failed
  · rename_i dirNi _ _ _ _
    cases got : ntfsOpGetattr config calls .parent mount.volume
      (if (ntfsResolveParentIno calls mount dirIno dirNi).1 = 0 then fileRoot
        else (ntfsResolveParentIno calls mount dirIno dirNi).1) with
    | error code =>
        simp only [got, Except.map] at failed
        cases failed
        exact ntfsOpGetattr_error_ne_ok got
    | ok attr =>
        simp only [got, Except.map] at failed
        cases failed
  split at failed
  · rename_i illegal
    cases failed
    exact ntfsUtf8ToUcs_error_ne_ok illegal
  split at failed
  · rename_i code _
    cases failed
    exact errnoToNfs3_ne_ok code
  split at failed
  · cases failed
    decide
  split at failed
  · rename_i code _
    cases failed
    exact errnoToNfs3_ne_ok code
  · cases failed

theorem ntfsFillAttr_type (config : Config) (fault : Option Errno) (ino : Nat)
    (record : NtfsRecord) :
    (ntfsFillAttr config fault ino record).type = .dir ↔ record.isDir = true := by
  unfold ntfsFillAttr
  simp only
  cases record.isDir <;> simp
  split <;> simp

section Unlink

variable {config : Config} {lib : NtfsLib} {calls : NtfsCalls} {mount : NtfsMount} {dirIno : Nat}
  {name : Name} {expectDir : Bool}

theorem ntfsOpUnlinkCommon_refused
    (refused : (ntfsOpUnlinkCommon config lib calls mount dirIno name expectDir).1.status ≠ .ok) :
    (ntfsOpUnlinkCommon config lib calls mount dirIno name expectDir).2.volume = mount.volume := by
  unfold ntfsOpUnlinkCommon at refused ⊢
  repeat' split
  all_goals first | rfl | skip
  rename_i opened directory _ _ legal _ _ found user _ _ childOpened noDir noFile _ left deleted
  simp only [opened, legal, found, childOpened, deleted, if_neg directory, if_neg user,
    if_neg noDir, if_neg noFile] at refused
  exact absurd rfl refused

/-- A successful REMOVE or RMDIR deleted the entry of an object outside the reserved range. -/
theorem ntfsOpUnlinkCommon_ok_cases
    (succeeded : (ntfsOpUnlinkCommon config lib calls mount dirIno name expectDir).1.status = .ok) :
    ∃ dirNi ucs cino record,
      ntfsInodeOpen (calls.fault (.openInode .dir)) mount.volume dirIno = .ok dirNi ∧
      dirNi.isDir = true ∧ ntfsUtf8ToUcs lib name = .ok ucs ∧
      findEntry (mount.volume.entries (mref dirIno)) ucs = some cino ∧ fileFirstUser ≤ cino ∧
      ntfsInodeOpen (calls.fault (.openInode .child)) mount.volume cino = .ok record ∧
      record.isDir = expectDir ∧
      ntfsDelete (calls.fault .delete) calls mount.volume cino (mref dirIno) ucs =
        .ok (ntfsOpUnlinkCommon config lib calls mount dirIno name expectDir).2.volume := by
  unfold ntfsOpUnlinkCommon at succeeded ⊢
  split
  · rename_i code closed
    simp only [closed] at succeeded
    cases succeeded
  rename_i dirNi opened
  simp only [opened] at succeeded
  split
  · rename_i notDir
    rw [if_pos notDir] at succeeded
    cases succeeded
  rename_i directory
  rw [if_neg directory] at succeeded
  split
  · rename_i status illegal
    simp only [illegal] at succeeded
    exact absurd succeeded (ntfsUtf8ToUcs_error_ne_ok illegal)
  rename_i ucs legal
  simp only [legal] at succeeded
  split
  · rename_i code missing
    simp only [missing] at succeeded
    exact absurd succeeded (errnoToNfs3_ne_ok code)
  rename_i cino found
  simp only [found] at succeeded
  split
  · rename_i reserved
    rw [if_pos reserved] at succeeded
    cases succeeded
  rename_i user
  rw [if_neg user] at succeeded
  split
  · rename_i code closed
    simp only [closed] at succeeded
    exact absurd succeeded (errnoToNfs3_ne_ok code)
  rename_i record childOpened
  simp only [childOpened] at succeeded
  split
  · rename_i notDir
    rw [if_pos notDir] at succeeded
    cases succeeded
  rename_i fits
  rw [if_neg fits] at succeeded
  split
  · rename_i isDir
    rw [if_pos isDir] at succeeded
    cases succeeded
  rename_i alsoFits
  rw [if_neg alsoFits] at succeeded
  have kind : record.isDir = expectDir := by
    revert fits alsoFits
    cases record.isDir <;> cases expectDir <;> simp
  split
  · rename_i code failed
    simp only [failed] at succeeded
    exact absurd succeeded (errnoToNfs3_ne_ok code)
  rename_i left deleted
  exact ⟨dirNi, ucs, cino, record, opened, by simpa using directory, legal,
    (ntfsLookupByName_ok found).2, by omega, childOpened, kind, deleted⟩

end Unlink

/-- A RENAME that gets past its checks: the names, the source, whether a target was removed
for it, and the state in which the entry is then moved. -/
structure NtfsRenameGoes (config : Config) (lib : NtfsLib) (calls : NtfsCalls) (mount : NtfsMount)
    (fromDir : Nat) (fromName : Name) (toDir : Nat) (toName : Name) (fu tu : UcsName) (ino : Nat)
    (removes : Bool) (left : NtfsMount) : Prop where
  fromGot : ∃ record, ntfsInodeOpen (calls.fault (.openInode .fromDir)) mount.volume fromDir =
    .ok record ∧ record.isDir = true
  toGot : ∃ record, ntfsInodeOpen (calls.fault (.openInode .toDir)) mount.volume toDir =
    .ok record ∧ record.isDir = true
  fromLegal : ntfsUtf8ToUcs lib fromName = .ok fu
  toLegal : ntfsUtf8ToUcs lib toName = .ok tu
  found : ∃ source, (ntfsOpLookup config lib (calls.within .source) mount fromDir fromName).1 =
    .ok (ino, source) ∧
      (let looked := ntfsOpLookup config lib (calls.within .target)
        (ntfsOpLookup config lib (calls.within .source) mount fromDir fromName).2 toDir toName
      (removes = false ∧ left = looked.2 ∧ looked.1 = .error .noent) ∨
      (removes = true ∧ ∃ replaced target, looked.1 = .ok (replaced, target) ∧ replaced ≠ ino ∧
        (source.type = .dir ↔ target.type = .dir) ∧
        (ntfsOpUnlinkCommon config lib (calls.within .unlinkDir) looked.2 toDir toName
          (decide (target.type = .dir))).1.status = .ok ∧
        left = (ntfsOpUnlinkCommon config lib (calls.within .unlinkDir) looked.2 toDir toName
          (decide (target.type = .dir))).2))

section Rename

variable {config : Config} {lib : NtfsLib} {calls : NtfsCalls} {mount : NtfsMount}
  {fromDir toDir : Nat} {fromName toName : Name}

theorem NtfsRenameGoes.moves {fu tu : UcsName} {ino : Nat} {removes : Bool} {left : NtfsMount}
    (goes : NtfsRenameGoes config lib calls mount fromDir fromName toDir toName fu tu ino removes
      left) :
    ∃ fromPre toPre, ntfsOpRename config lib calls mount fromDir fromName toDir toName =
      ntfsMoveEntry config calls left fromDir toDir fu tu ino fromPre toPre := by
  obtain ⟨fromRecord, fromOpens, fromIsDir⟩ := goes.fromGot
  obtain ⟨toRecord, toOpens, toIsDir⟩ := goes.toGot
  obtain ⟨source, sourceFound, target⟩ := goes.found
  have fromAttr : ntfsOpGetattr config calls .fromDir mount.volume fromDir =
      .ok (ntfsFillAttr config (calls.fault (.fillAttr .fromDir)) fromDir fromRecord) := by
    simp [ntfsOpGetattr, fromOpens]
  have toAttr : ntfsOpGetattr config calls .toDir mount.volume toDir =
      .ok (ntfsFillAttr config (calls.fault (.fillAttr .toDir)) toDir toRecord) := by
    simp [ntfsOpGetattr, toOpens]
  have fromType := (ntfsFillAttr_type config (calls.fault (.fillAttr .fromDir)) fromDir
    fromRecord).mpr fromIsDir
  have toType := (ntfsFillAttr_type config (calls.fault (.fillAttr .toDir)) toDir toRecord).mpr
    toIsDir
  unfold ntfsOpRename
  simp only [fromAttr, toAttr, fromType, toType, goes.fromLegal, goes.toLegal]
  generalize ntfsOpLookup config lib (calls.within .source) mount fromDir fromName = first at *
  obtain ⟨firstResult, middle⟩ := first
  simp only at sourceFound target
  subst sourceFound
  simp only
  generalize ntfsOpLookup config lib (calls.within .target) middle toDir toName = second at *
  obtain ⟨secondResult, looked⟩ := second
  simp only at target
  rcases target with ⟨-, rfl, missing⟩ | ⟨-, replaced, targetAttr, located, different, kinds, removed,
    rfl⟩
  · subst missing
    exact ⟨_, _, rfl⟩
  · subst located
    have intoDir : ¬ (source.type = .dir ∧ ¬ targetAttr.type = .dir) :=
      fun bad => bad.2 (kinds.mp bad.1)
    have intoFile : ¬ (¬ source.type = .dir ∧ targetAttr.type = .dir) :=
      fun bad => bad.1 (kinds.mpr bad.2)
    simp only [different, if_false, removed, ne_eq, intoDir, intoFile, not_true]
    exact ⟨_, _, rfl⟩

theorem ntfsOpRename_cases (config : Config) (lib : NtfsLib) (calls : NtfsCalls)
    (mount : NtfsMount) (fromDir toDir : Nat) (fromName toName : Name) :
    ((ntfsOpRename config lib calls mount fromDir fromName toDir toName).2.volume = mount.volume ∧
      ((ntfsOpRename config lib calls mount fromDir fromName toDir toName).1.status = .ok →
        ∃ fu tu ino, ntfsUtf8ToUcs lib fromName = .ok fu ∧ ntfsUtf8ToUcs lib toName = .ok tu ∧
          findEntry (mount.volume.entries (mref fromDir)) fu = some ino ∧
          findEntry (mount.volume.entries (mref toDir)) tu = some ino)) ∨
    ∃ fu tu ino removes left,
      NtfsRenameGoes config lib calls mount fromDir fromName toDir toName fu tu ino removes left := by
  have sourceVolume := ntfsOpLookup_volume config lib (calls.within .source) mount fromDir fromName
  have targetVolume := ntfsOpLookup_volume config lib (calls.within .target)
    (ntfsOpLookup config lib (calls.within .source) mount fromDir fromName).2 toDir toName
  unfold ntfsOpRename
  simp only
  split
  swap
  · exact .inl ⟨rfl, by rintro ⟨⟩⟩
  rename_i fpre tpre fromGot toGot
  obtain ⟨fromRecord, fromOpened, rfl⟩ := ntfsOpGetattr_ok fromGot
  obtain ⟨toRecord, toOpened, rfl⟩ := ntfsOpGetattr_ok toGot
  split
  · exact .inl ⟨rfl, by rintro ⟨⟩⟩
  rename_i types
  have fromIsDir := (ntfsFillAttr_type config _ fromDir fromRecord).mp
    (by simpa using (not_or.mp types).1)
  have toIsDir := (ntfsFillAttr_type config _ toDir toRecord).mp
    (by simpa using (not_or.mp types).2)
  split
  · rename_i illegal
    exact .inl ⟨rfl, fun bad => absurd bad (ntfsUtf8ToUcs_error_ne_ok illegal)⟩
  rename_i fu fromLegal
  split
  · rename_i illegal
    exact .inl ⟨rfl, fun bad => absurd bad (ntfsUtf8ToUcs_error_ne_ok illegal)⟩
  rename_i tu toLegal
  split
  · rename_i status found sourceLooked
    rw [sourceLooked] at sourceVolume
    exact .inl ⟨sourceVolume, fun bad =>
      absurd bad (ntfsOpLookup_error_ne_ok (congrArg Prod.fst sourceLooked))⟩
  rename_i ino source found sourceLooked
  have sourceFound := congrArg Prod.fst sourceLooked
  rw [sourceLooked] at sourceVolume targetVolume
  simp only at sourceFound sourceVolume targetVolume ⊢
  rw [sourceVolume] at targetVolume
  have goes (removes : Bool) (left : NtfsMount) (target) :
      NtfsRenameGoes config lib calls mount fromDir fromName toDir toName fu tu ino removes left :=
    { fromGot := ⟨fromRecord, fromOpened, fromIsDir⟩, toGot := ⟨toRecord, toOpened, toIsDir⟩
      fromLegal := fromLegal, toLegal := toLegal
      found := ⟨source, sourceFound, target⟩ }
  split
  · rename_i status looked targetLooked
    have targetFailed := congrArg Prod.fst targetLooked
    rw [targetLooked] at targetVolume
    split
    · exact .inl ⟨targetVolume, fun bad => absurd bad (ntfsOpLookup_error_ne_ok targetFailed)⟩
    · rename_i notFound
      have missing : status = .noent := by simpa using notFound
      subst missing
      refine .inr ⟨fu, tu, ino, false, looked, goes false looked (.inl ⟨rfl, ?_, ?_⟩)⟩
      · rw [sourceLooked, targetLooked]
      · rw [sourceLooked, targetLooked]
  rename_i replaced target looked targetLooked
  have targetFound := congrArg Prod.fst targetLooked
  rw [targetLooked] at targetVolume
  simp only at targetVolume targetFound
  split
  · rename_i same
    subst same
    refine .inl ⟨targetVolume, fun _ => ⟨fu, tu, replaced, fromLegal, toLegal,
      (ntfsOpLookup_ok fromLegal sourceFound).1, ?_⟩⟩
    rw [← sourceVolume]
    exact (ntfsOpLookup_ok toLegal targetFound).1
  rename_i different
  split
  · exact .inl ⟨targetVolume, by rintro ⟨⟩⟩
  rename_i notInto
  split
  · exact .inl ⟨targetVolume, by rintro ⟨⟩⟩
  rename_i notOver
  have kinds : source.type = .dir ↔ target.type = .dir := by
    constructor
    · intro isDir
      by_contra other
      exact notInto ⟨isDir, other⟩
    · intro isDir
      by_contra other
      exact notOver ⟨other, isDir⟩
  split
  · rename_i refused
    exact .inl ⟨(ntfsOpUnlinkCommon_refused refused).trans targetVolume, fun bad => absurd bad refused⟩
  · rename_i granted
    refine .inr ⟨fu, tu, ino, true, _, goes true _ (.inr ⟨rfl, replaced, target, ?_,
      different, kinds, ?_, rfl⟩)⟩
    · rw [sourceLooked, targetLooked]
    · rw [sourceLooked, targetLooked]
      simpa using granted

end Rename

theorem ntfsOpenPair_none {calls : NtfsCalls} {role : NtfsRole} {volume : NtfsVolume}
    {dir ino : Nat} (opened : ntfsOpenPair calls role volume dir ino = none) :
    (∃ record, ntfsInodeOpen (calls.fault (.openInode role)) volume dir = .ok record) ∧
      ∃ record, ntfsInodeOpen (calls.fault (.parentInode role)) volume ino = .ok record := by
  unfold ntfsOpenPair at opened
  split at opened
  · cases opened
  · rename_i dirRecord dirOpened
    split at opened
    · cases opened
    · rename_i record childOpened
      exact ⟨⟨dirRecord, dirOpened⟩, record, childOpened⟩

/-- The link step of RENAME, which makes nothing of its own when it fails. -/
def ntfsLinkStep (calls : NtfsCalls) (volume : NtfsVolume) (toDir : Nat) (tu : UcsName)
    (ino : Nat) : Except Errno NtfsVolume :=
  match ntfsOpenPair calls .linkDir volume toDir ino with
  | some code => .error code
  | none => ntfsLink (calls.fault .link) calls volume ino (mref toDir) tu

/-- The unlink step of RENAME, in the volume that the link left. -/
def ntfsUnlinkStep (calls : NtfsCalls) (linked : NtfsVolume) (fromDir : Nat) (fu : UcsName)
    (ino : Nat) : Except Errno NtfsVolume :=
  match ntfsOpenPair calls .unlinkDir linked fromDir ino with
  | some code => .error code
  | none => ntfsDelete (calls.fault .delete) calls linked ino (mref fromDir) fu

/-- A move stops at its first step and leaves the volume, stops at the second with the entry
linked twice, or completes. -/
theorem ntfsMoveEntry_cases (config : Config) (calls : NtfsCalls) (mount : NtfsMount)
    (fromDir toDir : Nat) (fu tu : UcsName) (ino : Nat) (fromPre toPre : WccPre) :
    let done := ntfsMoveEntry config calls mount fromDir toDir fu tu ino fromPre toPre
    (∃ code, ntfsLinkStep calls mount.volume toDir tu ino = .error code ∧ done.1.status ≠ .ok ∧
      done.2 = mount) ∨
    (∃ linked code, ntfsLinkStep calls mount.volume toDir tu ino = .ok linked ∧
      ntfsUnlinkStep calls linked fromDir fu ino = .error code ∧ done.1.status ≠ .ok ∧
      done.2.volume = linked) ∨
    (∃ linked left, ntfsLinkStep calls mount.volume toDir tu ino = .ok linked ∧
      ntfsUnlinkStep calls linked fromDir fu ino = .ok left ∧ done.1.status = .ok ∧
      done.2 = (mount.setVolume left).setParent ino toDir) := by
  unfold ntfsMoveEntry ntfsLinkStep ntfsUnlinkStep
  simp only
  cases opened : ntfsOpenPair calls .linkDir mount.volume toDir ino with
  | some code => exact .inl ⟨code, rfl, errnoToNfs3_ne_ok code, rfl⟩
  | none =>
      simp only
      cases linkDone : ntfsLink (calls.fault .link) calls mount.volume ino (mref toDir) tu with
      | error code => exact .inl ⟨code, rfl, errnoToNfs3_ne_ok code, rfl⟩
      | ok linked =>
          simp only
          refine .inr ?_
          cases reopened : ntfsOpenPair calls .unlinkDir linked fromDir ino with
          | some code =>
              exact .inl ⟨linked, code, rfl, by rw [reopened], errnoToNfs3_ne_ok code, rfl⟩
          | none =>
              simp only
              cases deleted : ntfsDelete (calls.fault .delete) calls linked ino (mref fromDir)
                  fu with
              | error code =>
                  refine .inl ⟨linked, code, rfl, ?_, errnoToNfs3_ne_ok code, rfl⟩
                  rw [reopened]
                  exact deleted
              | ok left =>
                  refine .inr ⟨linked, left, rfl, ?_, rfl, rfl⟩
                  rw [reopened]
                  exact deleted

end Rufux.Mountd
