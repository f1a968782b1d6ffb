import Rufux.Mountd.Objects

/-!
RENAME when the library fails in the middle of it.
-/

namespace Rufux.Mountd

open Rufux.Library ExtVolume NtfsVolume

section Ext

variable {server : Server} {calls : ExtCalls} {volume : ExtVolume} {fromDir toDir : Nat}
  {fromName toName : Name}

/-- The directories in which RENAME moves an entry, once a target is out of the way. -/
structure MoveReady (volume left : ExtVolume) (fromDir : Nat) (fromName : Name) (toDir : Nat)
    (toName : Name) (ino : Nat) : Prop where
  source : findEntry (volume.entries fromDir) fromName = some ino
  otherTarget : findEntry (volume.entries toDir) toName ≠ some ino
  present : (⟨fromName, ino⟩ : DirEntry Name) ∈ left.entries fromDir
  free : findEntry (left.entries toDir) toName = none
  fromUnique : UniqueNames (left.entries fromDir)
  toUnique : UniqueNames (left.entries toDir)
  dotdot : left.dotdot = volume.dotdot

theorem ExtRenameGoes.ready {config : Config} {ino : Nat} {removes : Bool} {left : ExtVolume}
    (goes : ExtRenameGoes config calls volume fromDir fromName toDir toName ino removes left)
    (truthful : calls.fault (.lookup .target) ≠ some .fileNotFound)
    (fromUnique : UniqueNames (volume.entries fromDir))
    (toUnique : UniqueNames (volume.entries toDir)) :
    MoveReady volume left fromDir fromName toDir toName ino ∧
      (removes = false → left = volume ∧ findEntry (volume.entries toDir) toName = none) ∧
      (removes = true → ∃ replaced, findEntry (volume.entries toDir) toName = some replaced ∧
        left.entries toDir = (volume.entries toDir).erase ⟨toName, replaced⟩) := by
  have source := (ext2fsLookup_ok goes.fromLeaf goes.sourceLookup).2
  have sourceMem := findEntry_mem source
  rcases goes.target with ⟨stays, rfl, missing⟩ | ⟨taken, replaced, found, different, -, -, removed,
    rfl⟩
  · have silent : calls.fault (.lookup .target) = none := by
      cases fault : calls.fault (.lookup .target) with
      | none => rfl
      | some code =>
          rw [fault] at missing truthful
          cases missing
          exact absurd rfl truthful
    have free := ext2fsLookup_missing goes.toLeaf silent missing
    refine ⟨⟨source, by simp [free], sourceMem, free, fromUnique, toUnique, rfl⟩,
      fun _ => ⟨rfl, free⟩, fun taken => ?_⟩
    rw [stays] at taken
    cases taken
  · have target := (ext2fsLookup_ok goes.toLeaf found).2
    obtain ⟨again, same, entries, dotdot⟩ := extRemoveTarget_ok removed
    rw [target] at same
    cases same
    have erased := congrFun entries toDir
    rw [Function.update_self] at erased
    refine ⟨⟨source, by simp [target, different], ?_, ?_, ?_, ?_, dotdot⟩, fun stays => ?_,
      fun _ => ⟨replaced, target, erased⟩⟩
    · by_cases same : fromDir = toDir
      · subst same
        rw [erased, fromUnique.mem_erase]
        refine ⟨?_, sourceMem⟩
        intro equal
        exact different (congrArg DirEntry.ino equal).symm
      · rw [congrFun entries fromDir, Function.update_of_ne same]
        exact sourceMem
    · rw [erased]
      exact toUnique.findEntry_erase_self (findEntry_mem target)
    · by_cases same : fromDir = toDir
      · subst same
        rw [erased]
        exact fromUnique.erase _
      · rw [congrFun entries fromDir, Function.update_of_ne same]
        exact fromUnique
    · rw [erased]
      exact toUnique.erase _
    · rw [taken] at stays
      cases stays

/-- Where the entries stand after a completed move. -/
theorem MoveReady.moved {left : ExtVolume} {ino : Nat}
    (ready : MoveReady volume left fromDir fromName toDir toName ino) {after : ExtVolume}
    (entries : after.entries = Function.update
      (Function.update left.entries toDir (insertEntry calls.arrange (left.entries toDir) toName ino))
      fromDir ((Function.update left.entries toDir
        (insertEntry calls.arrange (left.entries toDir) toName ino) fromDir).erase
          ⟨fromName, ino⟩)) :
    findEntry (after.entries toDir) toName = some ino ∧
      findEntry (after.entries fromDir) fromName = none := by
  have bound := findEntry_insertEntry_self calls.arrange ready.free ino
  rw [entries]
  by_cases same : fromDir = toDir
  · subst same
    simp only [Function.update_self]
    have unique := ready.toUnique.insertEntry calls.arrange ready.free ino
    have present : (⟨fromName, ino⟩ : DirEntry Name) ∈
        insertEntry calls.arrange (left.entries fromDir) toName ino :=
      mem_insertEntry.mpr (.inr ready.present)
    have renamed : fromName ≠ toName := by
      rintro rfl
      exact findEntry_isSome_of_mem ready.present ready.free
    exact ⟨(unique.findEntry_erase_of_ne renamed).trans bound, unique.findEntry_erase_self present⟩
  · have apart : toDir ≠ fromDir := fun equal => same equal.symm
    simp only [Function.update_self, Function.update_of_ne apart, Function.update_of_ne same]
    exact ⟨bound, ready.fromUnique.findEntry_erase_self ready.present⟩

variable {fromFh toFh : Handle}

end Ext

section Ntfs

variable {server : Server} {calls : NtfsCalls} {mount : NtfsMount} {fromDir toDir : Nat}
  {fromName toName : Name}

/-- What an index holds on a well-formed NTFS volume: names once each, and record numbers
other than that of the root. -/
structure WellFormedIndex (list : List (DirEntry UcsName)) : Prop where
  unique : UniqueNames list
  plain : ∀ entry ∈ list, 0 < entry.ino ∧ entry.ino < 2 ^ 48 ∧ entry.ino ≠ fileRoot

theorem ntfsLinkStep_ok {volume linked : NtfsVolume} {tu : UcsName} {ino : Nat}
    (done : ntfsLinkStep calls volume toDir tu ino = .ok linked) :
    findEntry (volume.entries (mref toDir)) tu = none ∧
      ∃ record, volume.record ino = some record ∧
        linked = (volume.setRecord ino (some { record with
          fileNames := record.fileNames ++ [(mref toDir, tu)] })).setEntries (mref toDir)
            (insertEntry calls.arrange (volume.entries (mref toDir)) tu ino) := by
  unfold ntfsLinkStep at done
  split at done
  · cases done
  · obtain ⟨-, -, free, record, present, after⟩ := ntfsLink_ok done
    exact ⟨free, record, present, after⟩

theorem ntfsUnlinkStep_ok {linked left : NtfsVolume} {fu : UcsName} {ino : Nat}
    (done : ntfsUnlinkStep calls linked fromDir fu ino = .ok left) :
    ntfsDelete (calls.fault .delete) calls linked ino (mref fromDir) fu = .ok left := by
  unfold ntfsUnlinkStep at done
  split at done
  · cases done
  · exact done

/-- Where the names stand when RENAME begins to move an entry. -/
structure NtfsMoveReady (before left : NtfsVolume) (fromDir : Nat) (fu : UcsName) (toDir : Nat)
    (tu : UcsName) (ino : Nat) : Prop where
  source : findEntry (before.entries (mref fromDir)) fu = some ino
  otherTarget : findEntry (before.entries (mref toDir)) tu ≠ some ino
  present : (⟨fu, ino⟩ : DirEntry UcsName) ∈ left.entries (mref fromDir)
  fromUnique : UniqueNames (left.entries (mref fromDir))
  toUnique : UniqueNames (left.entries (mref toDir))

theorem NtfsRenameGoes.sourceOk {config : Config} {lib : NtfsLib} {fu tu : UcsName} {ino : Nat}
    {removes : Bool} {left : NtfsMount}
    (goes : NtfsRenameGoes config lib calls mount fromDir fromName toDir toName fu tu ino removes
      left) : findEntry (mount.volume.entries (mref fromDir)) fu = some ino := by
  obtain ⟨source, found, -⟩ := goes.found
  exact (ntfsOpLookup_ok goes.fromLegal found).1

/-- Either nothing was removed, or just the entry at the target name was. -/
theorem NtfsRenameGoes.left_cases {config : Config} {lib : NtfsLib} {fu tu : UcsName} {ino : Nat}
    {removes : Bool} {left : NtfsMount}
    (goes : NtfsRenameGoes config lib calls mount fromDir fromName toDir toName fu tu ino removes
      left) :
    (removes = false ∧ left.volume = mount.volume) ∨
      (removes = true ∧ ∃ replaced,
        findEntry (mount.volume.entries (mref toDir)) tu = some replaced ∧ replaced ≠ ino ∧
        ntfsDelete (calls.fault (.within .unlinkDir .delete)) (calls.within .unlinkDir)
          mount.volume replaced (mref toDir) tu = .ok left.volume) := by
  obtain ⟨source, -, target⟩ := goes.found
  have sourceVolume := ntfsOpLookup_volume config lib (calls.within .source) mount fromDir fromName
  have targetVolume := ntfsOpLookup_volume config lib (calls.within .target)
    (ntfsOpLookup config lib (calls.within .source) mount fromDir fromName).2 toDir toName
  rw [sourceVolume] at targetVolume
  rcases target with ⟨stays, rfl, -⟩ | ⟨taken, replaced, attr, found, different, -, removed, rfl⟩
  · exact .inl ⟨stays, targetVolume⟩
  · have bound := (ntfsOpLookup_ok goes.toLegal found).1
    rw [sourceVolume] at bound
    obtain ⟨-, again, cino, -, -, -, legal, same, -, -, -, deleted⟩ :=
      ntfsOpUnlinkCommon_ok_cases removed
    rw [goes.toLegal] at legal
    cases legal
    rw [targetVolume, bound] at same
    cases same
    rw [targetVolume] at deleted
    exact .inr ⟨taken, replaced, bound, different, deleted⟩

theorem ntfsDelete_entries {fault : Option Errno} {volume left : NtfsVolume} {ino dir : Nat}
    {name : UcsName} (deleted : ntfsDelete fault calls volume ino dir name = .ok left) :
    left.entries = Function.update volume.entries dir
      (rearrange calls.arrange ((volume.entries dir).erase ⟨name, ino⟩)) := by
  obtain ⟨-, -, record, -, entries, -⟩ := ntfsDelete_ok deleted
  exact entries

theorem NtfsRenameGoes.ready {config : Config} {lib : NtfsLib} {fu tu : UcsName} {ino : Nat}
    {removes : Bool} {left : NtfsMount}
    (goes : NtfsRenameGoes config lib calls mount fromDir fromName toDir toName fu tu ino removes
      left)
    (fromUnique : UniqueNames (mount.volume.entries (mref fromDir)))
    (toUnique : UniqueNames (mount.volume.entries (mref toDir)))
    (free : findEntry (left.volume.entries (mref toDir)) tu = none) :
    NtfsMoveReady mount.volume left.volume fromDir fu toDir tu ino := by
  have source := goes.sourceOk
  have sourceMem := findEntry_mem source
  rcases goes.left_cases with ⟨-, same⟩ | ⟨-, replaced, target, different, deleted⟩
  · rw [same] at free ⊢
    exact ⟨source, by simp [free], sourceMem, fromUnique, toUnique⟩
  · have entries := ntfsDelete_entries deleted
    have order := rearrange_perm (calls.within .unlinkDir).arrange
      ((mount.volume.entries (mref toDir)).erase ⟨tu, replaced⟩)
    refine ⟨source, by simp [target, different], ?_, ?_, ?_⟩
    · by_cases same : mref fromDir = mref toDir
      · rw [entries, same, Function.update_self, order.mem_iff]
        rw [same] at sourceMem
        refine toUnique.mem_erase.mpr ⟨?_, sourceMem⟩
        intro equal
        exact different (congrArg DirEntry.ino equal).symm
      · rw [entries, Function.update_of_ne same]
        exact sourceMem
    · by_cases same : mref fromDir = mref toDir
      · rw [entries, same, Function.update_self]
        exact (toUnique.erase _).of_perm order
      · rw [entries, Function.update_of_ne same]
        exact fromUnique
    · rw [entries, Function.update_self]
      exact (toUnique.erase _).of_perm order

/-- Where the names stand after both steps. -/
theorem NtfsMoveReady.moved {before left linked after : NtfsVolume} {fu tu : UcsName} {ino : Nat}
    (ready : NtfsMoveReady before left fromDir fu toDir tu ino)
    (linkDone : ntfsLinkStep calls left toDir tu ino = .ok linked)
    (unlinkDone : ntfsUnlinkStep calls linked fromDir fu ino = .ok after) :
    findEntry (after.entries (mref toDir)) tu = some ino ∧
      findEntry (after.entries (mref fromDir)) fu = none := by
  obtain ⟨free, record, -, rfl⟩ := ntfsLinkStep_ok linkDone
  have entries := ntfsDelete_entries (ntfsUnlinkStep_ok unlinkDone)
  have bound := findEntry_insertEntry_self calls.arrange free ino
  simp only [NtfsVolume.setEntries_fields, NtfsVolume.setRecord_fields] at entries
  rw [entries]
  by_cases same : mref fromDir = mref toDir
  · have present := ready.present
    rw [same] at present ⊢
    simp only [Function.update_self]
    have unique := ready.toUnique.insertEntry calls.arrange free ino
    have order := rearrange_perm calls.arrange
      ((insertEntry calls.arrange (left.entries (mref toDir)) tu ino).erase ⟨fu, ino⟩)
    have stays : (⟨fu, ino⟩ : DirEntry UcsName) ∈
        insertEntry calls.arrange (left.entries (mref toDir)) tu ino :=
      mem_insertEntry.mpr (.inr present)
    have renamed : fu ≠ tu := by
      rintro rfl
      exact findEntry_isSome_of_mem present free
    rw [(unique.erase _).findEntry_perm order, (unique.erase _).findEntry_perm order]
    exact ⟨(unique.findEntry_erase_of_ne renamed).trans bound, unique.findEntry_erase_self stays⟩
  · have apart : mref toDir ≠ mref fromDir := fun equal => same equal.symm
    simp only [Function.update_self, Function.update_of_ne apart, Function.update_of_ne same]
    have order := rearrange_perm calls.arrange
      ((left.entries (mref fromDir)).erase ⟨fu, ino⟩)
    rw [(ready.fromUnique.erase _).findEntry_perm order]
    exact ⟨bound, ready.fromUnique.findEntry_erase_self ready.present⟩

/-- The record that is moved stays in use. -/
theorem NtfsMoveReady.record {before left linked after : NtfsVolume} {fu tu : UcsName} {ino : Nat}
    (ready : NtfsMoveReady before left fromDir fu toDir tu ino)
    (linkDone : ntfsLinkStep calls left toDir tu ino = .ok linked)
    (unlinkDone : ntfsUnlinkStep calls linked fromDir fu ino = .ok after) :
    ∃ record, after.record ino = some record := by
  obtain ⟨free, record, -, rfl⟩ := ntfsLinkStep_ok linkDone
  obtain ⟨-, -, again, found, -, -, -, ⟨last, -⟩ | ⟨-, -, stays⟩⟩ :=
    ntfsDelete_ok (ntfsUnlinkStep_ok unlinkDone)
  · simp only [NtfsVolume.setEntries_fields, NtfsVolume.setRecord_fields, Function.update_self,
      Option.some.injEq] at found
    subst found
    have other : (mref toDir, tu) ≠ (mref fromDir, fu) := by
      intro same
      obtain ⟨sameDir, sameName⟩ := Prod.mk.inj same
      rw [sameDir, sameName] at free
      exact findEntry_isSome_of_mem ready.present free
    have kept : (mref toDir, tu) ∈
        (record.fileNames ++ [(mref toDir, tu)]).erase (mref fromDir, fu) :=
      (List.mem_erase_of_ne other).mpr (by simp)
    rw [last] at kept
    cases kept
  · rw [stays, Function.update_self]
    exact ⟨_, rfl⟩

end Ntfs

/-- What a directory of a well-formed volume holds. -/
def WellFormedDir (volume : Volume) (dirIno : Nat) : Prop :=
  match volume with
  | .ntfs mount => WellFormedIndex (mount.volume.entries (mref dirIno))
  | .ext volume => UniqueNames (volume.entries dirIno)

/-- An ext volume with the files `a` and `b` in its root. -/
def twoFiles : ExtVolume :=
  let filled := ExtVolume.fresh.setEntries extRootIno [⟨[97], 12⟩, ⟨[98], 13⟩]
  { filled with
    inodeMap := fun ino => decide (ino < 11 ∨ ino = 12 ∨ ino = 13)
    inode := fun ino =>
      if ino = 12 ∨ ino = 13 then
        { ExtInode.zero with format := .reg, perm := 0o644, linksCount := 1 }
      else ExtVolume.fresh.inode ino }

theorem twoFiles_wellFormed : WellFormedDir (.ext twoFiles) extRootIno := by
  unfold WellFormedDir UniqueNames
  decide

end Rufux.Mountd
