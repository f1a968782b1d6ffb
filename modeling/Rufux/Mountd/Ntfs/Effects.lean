import Rufux.Mountd.Ntfs.Ops

/-!
What each edit of an NTFS volume leaves alone, and what a successful library call says.
-/

namespace Rufux.Mountd

open Rufux.Library

namespace NtfsVolume

variable (volume : NtfsVolume)

@[simp] theorem setRecord_fields (ino : Nat) (record : Option NtfsRecord) :
    (volume.setRecord ino record).record = Function.update volume.record ino record ∧
    (volume.setRecord ino record).sequence = volume.sequence ∧
    (volume.setRecord ino record).mftRecords = volume.mftRecords ∧
    (volume.setRecord ino record).entries = volume.entries ∧
    (volume.setRecord ino record).durable = volume.durable ∧
    (volume.setRecord ino record).hasSync = volume.hasSync := by
  simp [setRecord]

@[simp] theorem setEntries_fields (dir : Nat) (list : List (DirEntry UcsName)) :
    (volume.setEntries dir list).record = volume.record ∧
    (volume.setEntries dir list).sequence = volume.sequence ∧
    (volume.setEntries dir list).mftRecords = volume.mftRecords ∧
    (volume.setEntries dir list).entries = Function.update volume.entries dir list ∧
    (volume.setEntries dir list).durable = volume.durable ∧
    (volume.setEntries dir list).hasSync = volume.hasSync := by
  simp [setEntries]

@[simp] theorem bumpSequence_fields (ino : Nat) :
    (volume.bumpSequence ino).record = volume.record ∧
    (volume.bumpSequence ino).mftRecords = volume.mftRecords ∧
    (volume.bumpSequence ino).entries = volume.entries ∧
    (volume.bumpSequence ino).durable = volume.durable ∧
    (volume.bumpSequence ino).hasSync = volume.hasSync := by
  simp [bumpSequence]

end NtfsVolume

namespace NtfsMount

variable (mount : NtfsMount)

@[simp] theorem setVolume_volume (volume : NtfsVolume) :
    (mount.setVolume volume).volume = volume := rfl

@[simp] theorem setVolume_cache (volume : NtfsVolume) :
    (mount.setVolume volume).cache = mount.cache := rfl

end NtfsMount

/-- The same kind of object under the same names. -/
structure NtfsRecord.SameKind (before after : NtfsRecord) : Prop where
  isDir : after.isDir = before.isDir
  fileNames : after.fileNames = before.fileNames
  symlink : after.symlink = before.symlink

theorem NtfsRecord.SameKind.refl (record : NtfsRecord) : record.SameKind record :=
  ⟨rfl, rfl, rfl⟩

theorem NtfsRecord.SameKind.trans {first second third : NtfsRecord}
    (left : first.SameKind second) (right : second.SameKind third) : first.SameKind third :=
  ⟨right.isDir.trans left.isDir, right.fileNames.trans left.fileNames,
    right.symlink.trans left.symlink⟩

/-- An edit of the data and times of one record, which leaves the namespace alone. -/
structure NtfsVolume.EditsRecord (ino : Nat) (before after : NtfsVolume) : Prop where
  sequence : after.sequence = before.sequence
  mftRecords : after.mftRecords = before.mftRecords
  entries : after.entries = before.entries
  hasSync : after.hasSync = before.hasSync
  otherRecord : ∀ other, other ≠ ino → after.record other = before.record other
  sameRecord : after.record ino = before.record ino ∨
    ∃ old new, before.record ino = some old ∧ after.record ino = some new ∧ old.SameKind new

open NtfsVolume

theorem NtfsVolume.EditsRecord.refl (ino : Nat) (volume : NtfsVolume) :
    EditsRecord ino volume volume :=
  ⟨rfl, rfl, rfl, rfl, fun _ _ => rfl, .inl rfl⟩

theorem NtfsVolume.EditsRecord.trans {ino : Nat} {first second third : NtfsVolume}
    (left : EditsRecord ino first second) (right : EditsRecord ino second third) :
    EditsRecord ino first third where
  sequence := right.sequence.trans left.sequence
  mftRecords := right.mftRecords.trans left.mftRecords
  entries := right.entries.trans left.entries
  hasSync := right.hasSync.trans left.hasSync
  otherRecord other away := (right.otherRecord other away).trans (left.otherRecord other away)
  sameRecord := by
    rcases right.sameRecord with kept | ⟨old, new, before, after, kind⟩
    · rw [kept]
      exact left.sameRecord
    · rcases left.sameRecord with unchanged | ⟨oldest, middle, start, between, first⟩
      · exact .inr ⟨old, new, unchanged ▸ before, after, kind⟩
      · rw [between] at before
        cases before
        exact .inr ⟨oldest, new, start, after, first.trans kind⟩

theorem editsRecord_setRecord (volume : NtfsVolume) (ino : Nat) {old new : NtfsRecord}
    (present : volume.record ino = some old) (kind : old.SameKind new) :
    EditsRecord ino volume (volume.setRecord ino (some new)) := by
  refine ⟨rfl, rfl, rfl, rfl, ?_, .inr ⟨old, new, present, by simp, kind⟩⟩
  intro other away
  simp [away]

theorem editsRecord_sync (fault : Option Errno) (volume : NtfsVolume) (ino : Nat) :
    EditsRecord ino volume (ntfsSync fault volume) := by
  cases fault <;> exact ⟨rfl, rfl, rfl, rfl, fun _ _ => rfl, .inl rfl⟩

theorem ntfsInodeOpen_ok {fault : Option Errno} {volume : NtfsVolume} {reference : Nat}
    {record : NtfsRecord} (opened : ntfsInodeOpen fault volume reference = .ok record) :
    fault = none ∧ volume.record (mref reference) = some record ∧
      (mseqno reference = 0 ∨ mseqno reference = volume.sequence (mref reference)) := by
  unfold ntfsInodeOpen at opened
  split at opened
  · cases opened
  · split at opened
    · cases opened
    · split at opened
      · cases opened
      · cases opened
        refine ⟨rfl, by assumption, ?_⟩
        omega

theorem ntfsInodeOpen_of_record {volume : NtfsVolume} {reference : Nat} {record : NtfsRecord}
    (present : volume.record (mref reference) = some record)
    (sequence : mseqno reference = 0 ∨ mseqno reference = volume.sequence (mref reference)) :
    ntfsInodeOpen none volume reference = .ok record := by
  unfold ntfsInodeOpen
  simp only [present]
  rw [if_neg (by omega)]

theorem mref_of_lt {number : Nat} (plain : number < 2 ^ 48) : mref number = number :=
  Nat.mod_eq_of_lt plain

theorem mseqno_of_lt {number : Nat} (plain : number < 2 ^ 48) : mseqno number = 0 :=
  Nat.div_eq_of_lt plain

theorem ntfsResolveParentIno_volume (calls : NtfsCalls) (mount : NtfsMount) (ino : Nat)
    (record : NtfsRecord) : (ntfsResolveParentIno calls mount ino record).2.volume =
      mount.volume := by
  unfold ntfsResolveParentIno
  split
  · rfl
  · split
    · rfl
    · split <;> rfl

theorem ntfsOpenWithParent_volume (calls : NtfsCalls) (mount : NtfsMount) (ino : Nat) :
    (ntfsOpenWithParent calls mount ino).2.volume = mount.volume := by
  unfold ntfsOpenWithParent
  simp only
  split
  · rfl
  · split
    · rfl
    · exact ntfsResolveParentIno_volume calls mount ino _

/-- The record that `ntfs_open_with_parent` hands out is the one its number opens. -/
theorem ntfsOpenWithParent_record {calls : NtfsCalls} {mount opened : NtfsMount} {ino : Nat}
    {record : NtfsRecord} {hasParent : Bool}
    (found : ntfsOpenWithParent calls mount ino = (some (record, hasParent), opened)) :
    ntfsInodeOpen (calls.fault (.openInode .child)) mount.volume ino = .ok record := by
  unfold ntfsOpenWithParent at found
  simp only at found
  split at found
  · cases found
  · rename_i present
    split at found
    · cases found
      exact present
    · cases found
      exact present

theorem ntfsOpenWithParent_of_open {calls : NtfsCalls} {mount : NtfsMount} {ino : Nat}
    {record : NtfsRecord}
    (opens : ntfsInodeOpen (calls.fault (.openInode .child)) mount.volume ino = .ok record) :
    ∃ hasParent opened, ntfsOpenWithParent calls mount ino = (some (record, hasParent), opened) := by
  unfold ntfsOpenWithParent
  simp only [opens]
  split
  · exact ⟨_, _, rfl⟩
  · exact ⟨_, _, rfl⟩

theorem ntfsAttrPwrite_ok {fault : Option Errno} {calls : NtfsCalls} {bytes moved : List UInt8}
    {record written : NtfsRecord} {pos : Int}
    (stored : ntfsAttrPwrite fault calls bytes record pos moved = .ok written) :
    0 ≤ pos ∧ written = { record with
      data := some (splice 0 bytes pos.toNat moved), allocated := calls.allocated } := by
  unfold ntfsAttrPwrite at stored
  split at stored
  · cases stored
  · split at stored
    · cases stored
    · cases stored
      exact ⟨by omega, rfl⟩

theorem ntfsWriteLoop_sameKind (calls : NtfsCalls) (fuel turn pos : Nat) (data : List UInt8) (record : NtfsRecord) :
    record.SameKind (ntfsWriteLoop calls fuel turn pos data record).2 := by
  induction fuel generalizing turn pos data record with
  | zero => exact .refl record
  | succ fuel ih =>
      rw [ntfsWriteLoop]
      split
      · exact .refl record
      · simp only
        split
        · exact .refl record
        · rename_i written stored
          have kept : record.SameKind written := by
            obtain ⟨-, rfl⟩ := ntfsAttrPwrite_ok stored
            exact ⟨rfl, rfl, rfl⟩
          split
          · exact kept
          · exact kept.trans (ih _ _ _ _)

theorem ntfsAttrTruncate_ok {fault : Option Errno} {calls : NtfsCalls} {bytes : List UInt8}
    {record sized : NtfsRecord} {size : Int}
    (truncated : ntfsAttrTruncate fault calls bytes record size = .ok sized) :
    0 ≤ size ∧ sized = { record with
      data := some (resize 0 bytes size.toNat), allocated := calls.allocated } := by
  unfold ntfsAttrTruncate at truncated
  split at truncated
  · cases truncated
  · split at truncated
    · cases truncated
    · cases truncated
      exact ⟨by omega, rfl⟩

theorem ntfsGrowToOffset_sameKind {calls : NtfsCalls} {bytes : List UInt8}
    {record grown : NtfsRecord} {offset : Nat}
    (succeeded : ntfsGrowToOffset calls bytes record offset = .ok grown) :
    record.SameKind grown := by
  unfold ntfsGrowToOffset at succeeded
  split at succeeded
  · obtain ⟨-, rfl⟩ := ntfsAttrTruncate_ok succeeded
    exact ⟨rfl, rfl, rfl⟩
  · cases succeeded
    exact .refl record

theorem ntfsFinishWrite_edits (calls : NtfsCalls) (mount : NtfsMount) (hasParent : Bool)
    (stable : StableHow) (ino : Nat) :
    EditsRecord ino mount.volume (ntfsFinishWrite calls mount hasParent stable).2.volume := by
  unfold ntfsFinishWrite
  split
  · simp only
    split
    · exact editsRecord_sync _ _ ino
    · exact .refl ino _
  · exact .refl ino _

theorem ntfsFinishWrite_record (calls : NtfsCalls) (mount : NtfsMount) (hasParent : Bool)
    (stable : StableHow) :
    (ntfsFinishWrite calls mount hasParent stable).2.volume.record = mount.volume.record ∧
      (ntfsFinishWrite calls mount hasParent stable).2.volume.sequence = mount.volume.sequence := by
  unfold ntfsFinishWrite ntfsSync
  split
  · simp only
    split
    · cases calls.fault .sync <;> exact ⟨rfl, rfl⟩
    · exact ⟨rfl, rfl⟩
  · exact ⟨rfl, rfl⟩

theorem editsRecord_opWrite (config : Config) (calls : NtfsCalls) (mount : NtfsMount)
    (ino offset : Nat) (data : List UInt8) (stable : StableHow) :
    EditsRecord (mref ino) mount.volume
      (ntfsOpWrite config calls mount ino offset data stable).2.volume := by
  have untouched := ntfsOpenWithParent_volume calls mount ino
  unfold ntfsOpWrite
  split
  · rename_i opened found
    rw [found] at untouched
    rw [← untouched]
    exact .refl _ _
  rename_i record hasParent opened found
  obtain ⟨-, present, -⟩ := ntfsInodeOpen_ok (ntfsOpenWithParent_record found)
  rw [found] at untouched
  simp only at untouched ⊢
  rw [← untouched] at present ⊢
  split
  · exact .refl _ _
  split
  · exact .refl _ _
  split
  · exact .refl _ _
  split
  · exact .refl _ _
  rename_i grown grew
  have kind := ntfsGrowToOffset_sameKind grew
  have looped := ntfsWriteLoop_sameKind calls data.length 0 offset data grown
  split
  · rename_i status left stopped
    rw [stopped] at looped
    exact editsRecord_setRecord opened.volume _ present (kind.trans looped)
  · rename_i left finished
    rw [finished] at looped
    have stamped : record.SameKind { left with mtime := calls.now, ctime := calls.now } :=
      (kind.trans looped).trans ⟨rfl, rfl, rfl⟩
    have stored := editsRecord_setRecord opened.volume _ present stamped
    exact stored.trans (ntfsFinishWrite_edits calls (opened.setVolume _) hasParent stable _)

theorem ntfsFinishSetattr_edits (config : Config) (calls : NtfsCalls) (mount : NtfsMount)
    (ino : Nat) {old : NtfsRecord} (record : NtfsRecord) (hasParent : Bool) (sattr : SAttr3)
    (present : mount.volume.record (mref ino) = some old) (kind : old.SameKind record) :
    EditsRecord (mref ino) mount.volume
      (ntfsFinishSetattr config calls mount ino record hasParent sattr).2.volume := by
  have timed : old.SameKind (ntfsApplySattrTimes calls.now record sattr) :=
    kind.trans ⟨rfl, rfl, rfl⟩
  unfold ntfsFinishSetattr
  simp only
  split <;> exact editsRecord_setRecord mount.volume _ present timed

theorem editsRecord_opSetattr (config : Config) (calls : NtfsCalls) (mount : NtfsMount)
    (ino : Nat) (sattr : SAttr3) :
    EditsRecord (mref ino) mount.volume
      (ntfsOpSetattr config calls mount ino sattr).2.volume := by
  have untouched := ntfsOpenWithParent_volume calls mount ino
  unfold ntfsOpSetattr
  split
  · rename_i opened found
    rw [found] at untouched
    rw [← untouched]
    exact .refl _ _
  rename_i record hasParent opened found
  obtain ⟨-, present, -⟩ := ntfsInodeOpen_ok (ntfsOpenWithParent_record found)
  rw [found] at untouched
  simp only at untouched ⊢
  rw [← untouched] at present ⊢
  split
  · exact ntfsFinishSetattr_edits config calls opened ino record hasParent sattr present (.refl _)
  split
  · exact .refl _ _
  split
  · exact .refl _ _
  split
  · exact .refl _ _
  rename_i sized truncated
  refine ntfsFinishSetattr_edits config calls opened ino _ hasParent sattr present ?_
  obtain ⟨-, rfl⟩ := ntfsAttrTruncate_ok truncated
  exact ⟨rfl, rfl, rfl⟩

end Rufux.Mountd
