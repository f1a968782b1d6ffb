import Rufux.Mountd.Ntfs.Cases

/-!
What the NTFS operations leave alone, whatever call fails: a set of records that neither
the handles of a request nor the names it may use lead to.
-/

namespace Rufux.Mountd

open Rufux.Library NtfsVolume

/-- The records of a set keep all they hold, entries that are new refer to other records,
and the table of records only grows. -/
structure NtfsVolume.Spares (reserved : Nat → Prop) (before after : NtfsVolume) : Prop where
  record : ∀ ino, reserved ino → after.record ino = before.record ino
  sequence : ∀ ino, reserved ino → after.sequence ino = before.sequence ino
  bumped : ∀ ino, before.sequence ino < 2 ^ 16 → after.sequence ino < 2 ^ 16
  entries : ∀ ino, reserved ino → after.entries ino = before.entries ino
  gained : ∀ dir entry, entry ∈ after.entries dir →
    entry ∈ before.entries dir ∨ (¬ reserved entry.ino ∧ entry.ino < 2 ^ 48)
  grows : before.mftRecords ≤ after.mftRecords
  inUse : ∀ ino, after.record ino ≠ none → before.record ino ≠ none ∨ ino < after.mftRecords

/-- Entries hold record numbers of 48 bits, sequence numbers have sixteen, and records in
use lie within the table. -/
structure NtfsVolume.Numbered (volume : NtfsVolume) : Prop where
  sequence : ∀ ino, volume.sequence ino < 2 ^ 16
  plain : ∀ dir, ∀ entry ∈ volume.entries dir, entry.ino < 2 ^ 48
  inTable : ∀ ino, volume.record ino ≠ none → ino < volume.mftRecords

section Spares

variable {reserved : Nat → Prop} {before after : NtfsVolume}

theorem NtfsVolume.Spares.refl (volume : NtfsVolume) : Spares reserved volume volume where
  record _ _ := rfl
  sequence _ _ := rfl
  bumped _ bound := bound
  entries _ _ := rfl
  gained _ _ present := .inl present
  grows := Nat.le_refl _
  inUse _ used := .inl used

theorem NtfsVolume.Spares.trans {first second third : NtfsVolume}
    (left : Spares reserved first second) (right : Spares reserved second third) :
    Spares reserved first third where
  record ino kept := (right.record ino kept).trans (left.record ino kept)
  sequence ino kept := (right.sequence ino kept).trans (left.sequence ino kept)
  bumped ino bound := right.bumped ino (left.bumped ino bound)
  entries ino kept := (right.entries ino kept).trans (left.entries ino kept)
  gained dir entry present := by
    rcases right.gained dir entry present with old | new
    · exact left.gained dir entry old
    · exact .inr new
  grows := Nat.le_trans left.grows right.grows
  inUse ino used := by
    rcases right.inUse ino used with old | new
    · rcases left.inUse ino old with oldest | inside
      · exact .inl oldest
      · exact .inr (Nat.lt_of_lt_of_le inside right.grows)
    · exact .inr new

theorem NtfsVolume.Spares.numbered (spares : Spares reserved before after)
    (numbered : before.Numbered) : after.Numbered where
  sequence ino := spares.bumped ino (numbered.sequence ino)
  plain dir entry present := by
    rcases spares.gained dir entry present with old | new
    · exact numbered.plain dir entry old
    · exact new.2
  inTable ino used := by
    rcases spares.inUse ino used with old | new
    · exact Nat.lt_of_lt_of_le (numbered.inTable ino old) spares.grows
    · exact new

theorem NtfsVolume.EditsRecord.spares {ino : Nat} (edit : EditsRecord ino before after)
    (outside : ¬ reserved ino) : Spares reserved before after where
  record other kept := edit.otherRecord other fun same => outside (same ▸ kept)
  sequence other _ := congrFun edit.sequence other
  bumped other bound := by rwa [edit.sequence]
  entries other _ := congrFun edit.entries other
  gained dir entry present := .inl (by rwa [edit.entries] at present)
  grows := Nat.le_of_eq edit.mftRecords.symm
  inUse other used := by
    by_cases same : other = ino
    · subst same
      rcases edit.sameRecord with kept | ⟨old, new, present, -, -⟩
      · exact .inl (by rwa [kept] at used)
      · exact .inl (by simp [present])
    · exact .inl (by rwa [edit.otherRecord other same] at used)

theorem NtfsVolume.Spares.of_eq (same : after = before) : Spares reserved before after := by
  subst same
  exact .refl after

theorem ntfsUpdate_spared {α : Type} {reserved : Nat → Prop} {ino : Nat} (outside : ¬ reserved ino)
    (map : Nat → α) (value : α) (other : Nat) (kept : reserved other) :
    Function.update map ino value other = map other :=
  Function.update_of_ne (fun same : other = ino => outside (same ▸ kept)) _ _

variable {volume : NtfsVolume} {calls : NtfsCalls} {dir : Nat} {name : UcsName}

theorem ntfsSpares_create {kind : NtfsKind} {made : Nat × NtfsVolume}
    (user : ∀ ino, fileFirstUser ≤ ino → ¬ reserved ino) (outside : ¬ reserved dir)
    (created : ntfsCreate calls volume dir name kind = .ok made) :
    ¬ reserved made.1 ∧ Spares reserved volume made.2 := by
  obtain ⟨-, -, fresh, records, entries, sequence, -, -, table⟩ := ntfsCreate_ok created
  obtain ⟨-, first, plain, -⟩ := ntfsNewRecord_ok fresh
  have allowed := user made.1 first
  refine ⟨allowed, ?_, ?_, ?_, ?_, ?_, ?_, ?_⟩
  · intro ino kept
    rw [records]
    exact ntfsUpdate_spared allowed _ _ ino kept
  · intro ino _
    rw [sequence]
  · intro ino bound
    rwa [sequence]
  · intro ino kept
    rw [entries, ntfsUpdate_spared outside _ _ ino kept]
    exact ntfsUpdate_spared allowed _ _ ino kept
  · intro other entry present
    have emptied : ∀ number, entry ∈ Function.update volume.entries made.1 [] number →
        entry ∈ volume.entries number := by
      intro number listed
      by_cases same : number = made.1
      · subst same
        simp at listed
      · rwa [Function.update_of_ne same] at listed
    rw [entries] at present
    by_cases same : other = dir
    · subst same
      rw [Function.update_self] at present
      rcases mem_insertEntry.mp present with rfl | old
      · exact .inr ⟨allowed, plain⟩
      · exact .inl (emptied other old)
    · rw [Function.update_of_ne same] at present
      exact .inl (emptied other present)
  · omega
  · intro ino used
    rw [records] at used
    by_cases same : ino = made.1
    · exact .inr (by omega)
    · rw [Function.update_of_ne same] at used
      exact .inl used

theorem ntfsSpares_link {fault : Option Errno} {linked : NtfsVolume} {ino : Nat}
    (outside : ¬ reserved dir) (allowed : ¬ reserved ino) (plain : ino < 2 ^ 48)
    (done : ntfsLink fault calls volume ino dir name = .ok linked) :
    Spares reserved volume linked := by
  obtain ⟨-, -, -, record, present, rfl⟩ := ntfsLink_ok done
  refine ⟨?_, ?_, ?_, ?_, ?_, ?_, ?_⟩
  · intro other kept
    simp only [setEntries_fields, setRecord_fields]
    exact ntfsUpdate_spared allowed _ _ other kept
  · intro other _
    simp
  · intro other bound
    simpa using bound
  · intro other kept
    simp only [setEntries_fields, setRecord_fields]
    exact ntfsUpdate_spared outside _ _ other kept
  · intro other entry listed
    simp only [setEntries_fields, setRecord_fields] at listed
    by_cases same : other = dir
    · subst same
      rw [Function.update_self] at listed
      rcases mem_insertEntry.mp listed with rfl | old
      · exact .inr ⟨allowed, plain⟩
      · exact .inl old
    · rw [Function.update_of_ne same] at listed
      exact .inl listed
  · simp
  · intro other used
    by_cases same : other = ino
    · subst same
      exact .inl (by simp [present])
    · simp only [setEntries_fields, setRecord_fields, Function.update_of_ne same] at used
      exact .inl used

theorem ntfsSpares_delete {fault : Option Errno} {left : NtfsVolume} {ino : Nat}
    (outside : ¬ reserved dir) (allowed : ¬ reserved ino)
    (done : ntfsDelete fault calls volume ino dir name = .ok left) :
    Spares reserved volume left := by
  have sequences : ∀ other, (other ≠ ino → left.sequence other = volume.sequence other) ∧
      (volume.sequence other < 2 ^ 16 → left.sequence other < 2 ^ 16) := by
    intro other
    unfold ntfsDelete at done
    split at done
    · cases done
    split at done
    · cases done
    split at done
    · cases done
    simp only at done
    split at done
    · cases done
    · cases done
      split
      · by_cases same : other = ino
        · subst same
          simp only [bumpSequence, setRecord_fields, setEntries_fields, Function.update_self, ne_eq,
            not_true, false_implies, true_and]
          split <;> omega
        · simp [bumpSequence, same]
      · simp
  obtain ⟨-, -, record, present, entries, table, -, change⟩ := ntfsDelete_ok done
  have others : ∀ other, other ≠ ino → left.record other = volume.record other := by
    intro other apart
    rcases change with ⟨-, -, records⟩ | ⟨-, -, records⟩
    · rw [records, Function.update_of_ne apart]
    · rw [records, Function.update_of_ne apart]
  refine ⟨?_, ?_, fun other => (sequences other).2, ?_, ?_, ?_, ?_⟩
  · intro other kept
    exact others other fun same => allowed (same ▸ kept)
  · intro other kept
    exact (sequences other).1 fun same => allowed (same ▸ kept)
  · intro other kept
    rw [entries]
    exact ntfsUpdate_spared outside _ _ other kept
  · intro other entry listed
    rw [entries] at listed
    by_cases same : other = dir
    · subst same
      rw [Function.update_self, (rearrange_perm _ _).mem_iff] at listed
      exact .inl (List.mem_of_mem_erase listed)
    · rw [Function.update_of_ne same] at listed
      exact .inl listed
  · exact Nat.le_of_eq table.symm
  · intro other used
    by_cases same : other = ino
    · subst same
      exact .inl (by simp [present])
    · rw [others other same] at used
      exact .inl used

end Spares

section Operations

variable {reserved : Nat → Prop} {config : Config} {lib : NtfsLib} {calls : NtfsCalls}
  {mount : NtfsMount} {dirIno : Nat} {name : Name}

theorem ntfsDressFile_sameKind (calls : NtfsCalls) (sattr : Option SAttr3) (record : NtfsRecord) :
    record.SameKind (ntfsDressFile calls sattr record) := by
  unfold ntfsDressFile
  split
  · exact .refl record
  simp only
  have sized : ∀ left : NtfsRecord, record.SameKind left → ∀ settings,
      record.SameKind (ntfsApplySattrTimes calls.now left settings) :=
    fun left kind settings => kind.trans ⟨rfl, rfl, rfl⟩
  split
  · split
    · exact sized record (.refl record) _
    · rename_i bytes _
      refine sized _ ?_ _
      cases truncated : ntfsAttrTruncate (calls.fault .truncate) calls bytes record _ with
      | error code => exact .refl record
      | ok left =>
          obtain ⟨-, rfl⟩ := ntfsAttrTruncate_ok truncated
          exact ⟨rfl, rfl, rfl⟩
  · exact sized record (.refl record) _

theorem ntfsDressTimes_sameKind (calls : NtfsCalls) (sattr : Option SAttr3) (record : NtfsRecord) :
    record.SameKind (ntfsDressTimes calls sattr record) := by
  unfold ntfsDressTimes
  split
  · exact .refl record
  · exact ⟨rfl, rfl, rfl⟩

/-- The new record once CREATE, MKDIR or SYMLINK is done with it. -/
theorem ntfsFinishCreate_edits (config : Config) (calls : NtfsCalls) (mount : NtfsMount)
    (dirIno : Nat) (dirNi : NtfsRecord) (pre : WccPre) {kind : NtfsKind} {ucs : UcsName} {dir : Nat}
    {made : Nat × NtfsVolume} {finish : NtfsRecord → NtfsRecord}
    (created : ntfsCreate calls mount.volume dir ucs kind = .ok made)
    (keeps : ∀ record : NtfsRecord, record.SameKind (finish record)) :
    EditsRecord made.1 made.2
      (ntfsFinishCreate config calls mount dirIno dirNi pre made finish).2.volume := by
  obtain ⟨-, -, -, records, -, -, -, -, -⟩ := ntfsCreate_ok created
  have present : made.2.record made.1 = some (freshRecord calls kind dir ucs) := by
    rw [records, Function.update_self]
  rw [ntfsFinishCreate_volume, present]
  exact editsRecord_setRecord made.2 made.1 present (keeps _)

theorem ntfsSpares_opCreate (user : ∀ ino, fileFirstUser ≤ ino → ¬ reserved ino)
    (outside : ¬ reserved (mref dirIno)) (mode : CreateMode) (sattr : Option SAttr3)
    (named : mode = .unchecked → ∀ ucs existing, ntfsUtf8ToUcs lib name = .ok ucs →
      findEntry (mount.volume.entries (mref dirIno)) ucs = some existing →
      ¬ reserved (mref existing)) :
    Spares reserved mount.volume
      (ntfsOpCreate config lib calls mount dirIno name mode sattr).2.volume := by
  unfold ntfsOpCreate
  split
  · exact .refl _
  simp only
  split
  · exact .refl _
  split
  · exact .refl _
  rename_i ucs legal
  split
  · rename_i existing found
    split
    · exact .refl _
    rename_i unchecked
    have allowed := named (by simpa using unchecked) ucs existing legal (ntfsLookupByName_ok found).2
    unfold ntfsCreateExisting
    cases sattr with
    | none => exact .refl _
    | some settings =>
        exact (editsRecord_opSetattr config (calls.within .child) (mount.setParent existing dirIno)
          existing settings).spares allowed
  · split
    · exact .refl _
    split
    · exact .refl _
    · rename_i made created
      obtain ⟨allowed, spares⟩ := ntfsSpares_create user outside created
      exact spares.trans ((ntfsFinishCreate_edits config calls mount dirIno _ _ created
        (ntfsDressFile_sameKind calls sattr)).spares allowed)

theorem ntfsSpares_opMkdir (user : ∀ ino, fileFirstUser ≤ ino → ¬ reserved ino)
    (outside : ¬ reserved (mref dirIno)) (sattr : Option SAttr3) :
    Spares reserved mount.volume
      (ntfsOpMkdir config lib calls mount dirIno name sattr).2.volume := by
  unfold ntfsOpMkdir
  split
  · exact .refl _
  simp only
  split
  · exact .refl _
  split
  · exact .refl _
  split
  · exact .refl _
  split
  · exact .refl _
  · rename_i made created
    obtain ⟨allowed, spares⟩ := ntfsSpares_create user outside created
    exact spares.trans ((ntfsFinishCreate_edits config calls mount dirIno _ _ created
      (ntfsDressTimes_sameKind calls sattr)).spares allowed)

theorem ntfsSpares_opSymlink (user : ∀ ino, fileFirstUser ≤ ino → ¬ reserved ino)
    (outside : ¬ reserved (mref dirIno)) (sattr : Option SAttr3) (target : Name) :
    Spares reserved mount.volume
      (ntfsOpSymlink config lib calls mount dirIno name sattr target).2.volume := by
  unfold ntfsOpSymlink
  split
  · exact .refl _
  split
  · exact .refl _
  simp only
  split
  · exact .refl _
  split
  · exact .refl _
  split
  · exact .refl _
  split
  · exact .refl _
  split
  · exact .refl _
  · rename_i made created
    obtain ⟨allowed, spares⟩ := ntfsSpares_create user outside created
    exact spares.trans ((ntfsFinishCreate_edits config calls mount dirIno _ _ created
      (ntfsDressTimes_sameKind calls sattr)).spares allowed)

theorem ntfsSpares_opUnlinkCommon (user : ∀ ino, fileFirstUser ≤ ino → ¬ reserved ino)
    (outside : ¬ reserved (mref dirIno)) (expectDir : Bool) :
    Spares reserved mount.volume
      (ntfsOpUnlinkCommon config lib calls mount dirIno name expectDir).2.volume := by
  by_cases succeeded :
      (ntfsOpUnlinkCommon config lib calls mount dirIno name expectDir).1.status = .ok
  · obtain ⟨_, _, cino, _, -, -, -, -, first, -, -, deleted⟩ := ntfsOpUnlinkCommon_ok_cases succeeded
    exact ntfsSpares_delete outside (user cino first) deleted
  · exact .of_eq (ntfsOpUnlinkCommon_refused succeeded)

theorem ntfsSpares_opRename (numbered : mount.volume.Numbered)
    (user : ∀ ino, fileFirstUser ≤ ino → ¬ reserved ino) (root : ¬ reserved fileRoot)
    {fromDir toDir : Nat} (fromOutside : ¬ reserved (mref fromDir))
    (toOutside : ¬ reserved (mref toDir)) (fromName toName : Name) :
    Spares reserved mount.volume
      (ntfsOpRename config lib calls mount fromDir fromName toDir toName).2.volume := by
  rcases ntfsOpRename_cases config lib calls mount fromDir toDir fromName toName with
    ⟨unchanged, -⟩ | ⟨fu, tu, ino, removes, left, goes⟩
  · exact .of_eq unchanged
  · obtain ⟨source, looked, -⟩ := goes.found
    obtain ⟨found, shown, -⟩ := ntfsOpLookup_ok goes.fromLegal looked
    have plain := numbered.plain _ _ (findEntry_mem found)
    have allowed : ¬ reserved ino := by
      rcases shown with first | isRoot
      · exact user ino first
      · rw [isRoot]
        exact root
    have cleared : Spares reserved mount.volume left.volume := by
      obtain ⟨source, -, target⟩ := goes.found
      have sourceVolume := ntfsOpLookup_volume config lib (calls.within .source) mount fromDir
        fromName
      have targetVolume := ntfsOpLookup_volume config lib (calls.within .target)
        (ntfsOpLookup config lib (calls.within .source) mount fromDir fromName).2 toDir toName
      rw [sourceVolume] at targetVolume
      rcases target with ⟨-, rfl, -⟩ | ⟨-, replaced, attr, -, -, -, -, rfl⟩
      · exact .of_eq targetVolume
      · rw [← targetVolume]
        exact ntfsSpares_opUnlinkCommon user toOutside _
    obtain ⟨fromPre, toPre, moves⟩ := goes.moves
    rw [moves]
    have linkStep : ∀ linked, ntfsLinkStep calls left.volume toDir tu ino = .ok linked →
        Spares reserved left.volume linked := by
      intro linked done
      unfold ntfsLinkStep at done
      split at done
      · cases done
      · exact ntfsSpares_link toOutside allowed plain done
    rcases ntfsMoveEntry_cases config calls left fromDir toDir fu tu ino fromPre toPre with
      ⟨code, -, -, after⟩ | ⟨linked, code, done, -, -, after⟩ | ⟨linked, final, done, unlinkDone, -,
        after⟩
    · rw [after]
      exact cleared
    · rw [after]
      exact cleared.trans (linkStep linked done)
    · rw [after]
      unfold ntfsUnlinkStep at unlinkDone
      split at unlinkDone
      · cases unlinkDone
      · exact (cleared.trans (linkStep linked done)).trans
          (ntfsSpares_delete fromOutside allowed unlinkDone)

theorem ntfsSpares_opLink {ino : Nat} (outside : ¬ reserved (mref dirIno))
    (allowed : ¬ reserved (mref ino)) :
    Spares reserved mount.volume
      (ntfsOpLink config lib calls mount ino dirIno name).2.volume := by
  unfold ntfsOpLink
  split
  · exact .refl _
  simp only
  split
  · exact .refl _
  split
  · exact .refl _
  split
  · split
    · exact .refl _
    split
    · exact .refl _
    · rename_i linked done
      exact ntfsSpares_link outside allowed (Nat.mod_lt _ (by decide)) done
  · exact .refl _

theorem ntfsSpares_sync (fault : Option Errno) (volume : NtfsVolume) :
    Spares reserved volume (ntfsSync fault volume) := by
  cases fault with
  | some code => exact .refl volume
  | none => exact ⟨fun _ _ => rfl, fun _ _ => rfl, fun _ bound => bound, fun _ _ => rfl,
      fun _ _ present => .inl present, Nat.le_refl _, fun _ used => .inl used⟩

theorem ntfsSpares_opCommit (ino : Nat) :
    Spares reserved mount.volume (ntfsOpCommit config calls mount ino).2.volume := by
  unfold ntfsOpCommit
  split
  · exact .refl _
  split
  · split
    · exact .refl _
    · exact ntfsSpares_sync none _
  · exact .refl _

theorem ntfsOpReaddir_volume :
    (ntfsOpReaddir config lib calls mount dirIno).2.2.volume = mount.volume := by
  have cached : ∀ (list : List DirEntryItem) (start : NtfsMount),
      (list.foldl (fun left item => left.setParent item.fileid dirIno) start).volume =
        start.volume := by
    intro list
    induction list with
    | nil => exact fun _ => rfl
    | cons item rest ih => exact fun start => ih _
  unfold ntfsOpReaddir
  split
  · rfl
  simp only
  split
  · rfl
  split
  · exact (cached _ _).trans (ntfsResolveParentIno_volume calls mount dirIno _)
  · exact (cached _ _).trans (ntfsResolveParentIno_volume calls mount dirIno _)

theorem ntfsSpares_syncAll : Spares reserved mount.volume (ntfsSyncAll calls mount).volume := by
  unfold ntfsSyncAll
  split
  · exact ntfsSpares_sync _ _
  · exact .refl _

end Operations

end Rufux.Mountd
