import Rufux.Mountd.Ext.Quiet

/-!
What each ext operation that edits a directory can do: the refusals that change nothing,
and the course of one that succeeds.
-/

namespace Rufux.Mountd

open Rufux.Library ExtVolume

theorem ext2fsUnlink_ok {fault : Option Errcode} {volume unlinked : ExtVolume} {dir ino : Nat}
    {name : Name} (removed : ext2fsUnlink fault volume dir name ino = (none, unlinked)) :
    fault = none ∧ (⟨name, ino⟩ : DirEntry Name) ∈ volume.entries dir ∧
      unlinked = volume.setEntries dir ((volume.entries dir).erase ⟨name, ino⟩) := by
  unfold ext2fsUnlink at removed
  split at removed
  · cases removed
  · split at removed
    · rename_i present
      cases removed
      exact ⟨rfl, present, rfl⟩
    · cases removed

theorem ext2fsLookup_ok {fault : Option Errcode} {volume : ExtVolume} {dir ino : Nat} {name : Name}
    (leaf : validLeafName name = true) (found : ext2fsLookup fault volume dir name = .ok ino) :
    fault = none ∧ findEntry (volume.entries dir) name = some ino := by
  cases fault with
  | some code => cases found
  | none =>
      rw [ext2fsLookup_leaf volume dir leaf] at found
      split at found
      · rename_i located
        cases found
        exact ⟨rfl, located⟩
      · cases found

/-- A look-up that does not fail and finds nothing. -/
theorem ext2fsLookup_missing {fault : Option Errcode} {volume : ExtVolume} {dir : Nat}
    {name : Name} {code : Errcode} (leaf : validLeafName name = true) (silent : fault = none)
    (missing : ext2fsLookup fault volume dir name = .error code) :
    findEntry (volume.entries dir) name = none := by
  subst silent
  rw [ext2fsLookup_leaf volume dir leaf] at missing
  split at missing
  · cases missing
  · assumption

section Remove

variable {config : Config} {calls : ExtCalls} {volume : ExtVolume} {dir : Nat} {name : Name}

theorem extOpRemove_refused
    (refused : (extOpRemove config calls volume dir name).1.status ≠ .ok) :
    (extOpRemove config calls volume dir name).2 = volume := by
  unfold extOpRemove at refused ⊢
  repeat' split
  all_goals first | rfl | skip
  all_goals simp_all

theorem extOpRmdir_refused
    (refused : (extOpRmdir config calls volume dir name).1.status ≠ .ok) :
    (extOpRmdir config calls volume dir name).2 = volume := by
  unfold extOpRmdir at refused ⊢
  repeat' split
  all_goals first | rfl | skip
  all_goals simp_all

/-- A successful REMOVE took the entry of a live object that is not a directory, and then
dropped a link of it. -/
theorem extOpRemove_ok_cases
    (succeeded : (extOpRemove config calls volume dir name).1.status = .ok) :
    ∃ ino, extReadValidInode (calls.fault (.readValid .dir)) volume dir =
        .ok (volume.inode dir) ∧
      (volume.inode dir).isDir = true ∧
      extReadValidInode (calls.fault (.readValid .child)) volume ino = .ok (volume.inode ino) ∧
      (volume.inode ino).isDir = false ∧ validLeafName name = true ∧
      findEntry (volume.entries dir) name = some ino ∧
      (extOpRemove config calls volume dir name).2 =
        extTouchDir calls .dir (extDropLink calls
          (volume.setEntries dir ((volume.entries dir).erase ⟨name, ino⟩)) ino (volume.inode ino))
          dir := by
  unfold extOpRemove at succeeded ⊢
  split
  · rename_i status invalid
    rw [invalid] at succeeded
    exact absurd succeeded (extReadValidInode_error_ne_ok invalid)
  rename_i din valid
  obtain ⟨-, -, -, rfl, -, -⟩ := extReadValidInode_ok valid
  simp only [valid] at succeeded ⊢
  split
  · rename_i notDir
    rw [if_pos notDir] at succeeded
    cases succeeded
  rename_i directory
  rw [if_neg directory] at succeeded
  split
  · rename_i illegal
    rw [if_pos illegal] at succeeded
    cases succeeded
  rename_i legal
  rw [if_neg legal] at succeeded
  have leaf : validLeafName name = true := by simpa using legal
  split
  · rename_i code missing
    simp only [missing] at succeeded
    exact absurd succeeded (extErrToNfs3_ne_ok code)
  rename_i ino found
  simp only [found] at succeeded
  split
  · rename_i status invalid
    simp only [invalid] at succeeded
    exact absurd succeeded (extReadValidInode_error_ne_ok invalid)
  rename_i cin childValid
  obtain ⟨-, -, -, rfl, -, -⟩ := extReadValidInode_ok childValid
  simp only [childValid] at succeeded
  split
  · rename_i childDir
    rw [if_pos childDir] at succeeded
    cases succeeded
  rename_i notChildDir
  rw [if_neg notChildDir] at succeeded
  split
  · rename_i code failed unlinkFailed
    simp only [unlinkFailed] at succeeded
    exact absurd succeeded (extErrToNfs3_ne_ok code)
  rename_i unlinked unlinkedOk
  obtain ⟨-, -, rfl⟩ := ext2fsUnlink_ok unlinkedOk
  exact ⟨ino, trivial, by simpa using directory, childValid, by simpa using notChildDir, leaf,
    (ext2fsLookup_ok leaf found).2, rfl⟩

/-- A successful RMDIR took the entry of an empty directory that is not the root, and then
released its inode. -/
theorem extOpRmdir_ok_cases
    (succeeded : (extOpRmdir config calls volume dir name).1.status = .ok) :
    ∃ ino, extReadValidInode (calls.fault (.readValid .dir)) volume dir =
        .ok (volume.inode dir) ∧
      (volume.inode dir).isDir = true ∧
      extReadValidInode (calls.fault (.readValid .child)) volume ino = .ok (volume.inode ino) ∧
      (volume.inode ino).isDir = true ∧ validLeafName name = true ∧ ino ≠ extRootIno ∧
      volume.entries ino = [] ∧ findEntry (volume.entries dir) name = some ino ∧
      (extOpRmdir config calls volume dir name).2 =
        extReleaseDir calls (volume.setEntries dir ((volume.entries dir).erase ⟨name, ino⟩)) dir ino
          (volume.inode ino) := by
  unfold extOpRmdir at succeeded ⊢
  split
  · rename_i status invalid
    rw [invalid] at succeeded
    exact absurd succeeded (extReadValidInode_error_ne_ok invalid)
  rename_i din valid
  obtain ⟨-, -, -, rfl, -, -⟩ := extReadValidInode_ok valid
  simp only [valid] at succeeded ⊢
  split
  · rename_i notDir
    rw [if_pos notDir] at succeeded
    cases succeeded
  rename_i directory
  rw [if_neg directory] at succeeded
  split
  · rename_i illegal
    rw [if_pos illegal] at succeeded
    cases succeeded
  rename_i legal
  rw [if_neg legal] at succeeded
  have leaf : validLeafName name = true := by simpa using legal
  split
  · rename_i code missing
    simp only [missing] at succeeded
    exact absurd succeeded (extErrToNfs3_ne_ok code)
  rename_i ino found
  simp only [found] at succeeded
  split
  · rename_i isRoot
    rw [if_pos isRoot] at succeeded
    cases succeeded
  rename_i notRoot
  rw [if_neg notRoot] at succeeded
  split
  · rename_i status invalid
    simp only [invalid] at succeeded
    exact absurd succeeded (extReadValidInode_error_ne_ok invalid)
  rename_i cin childValid
  obtain ⟨-, -, -, rfl, -, -⟩ := extReadValidInode_ok childValid
  simp only [childValid] at succeeded
  split
  · rename_i notChildDir
    rw [if_pos notChildDir] at succeeded
    cases succeeded
  rename_i childDir
  rw [if_neg childDir] at succeeded
  split
  · rename_i code failed
    simp only [failed] at succeeded
    exact absurd succeeded (extErrToNfs3_ne_ok code)
  rename_i iterated
  simp only [iterated] at succeeded
  split
  · rename_i nonempty
    rw [if_pos nonempty] at succeeded
    cases succeeded
  rename_i empty
  rw [if_neg empty] at succeeded
  split
  · rename_i code failed unlinkFailed
    simp only [unlinkFailed] at succeeded
    exact absurd succeeded (extErrToNfs3_ne_ok code)
  rename_i unlinked unlinkedOk
  obtain ⟨-, -, rfl⟩ := ext2fsUnlink_ok unlinkedOk
  exact ⟨ino, trivial, by simpa using directory, childValid, by simpa using childDir, leaf, notRoot,
    by simpa using empty, (ext2fsLookup_ok leaf found).2, rfl⟩

end Remove

/-- A RENAME that gets past its checks: the source, whether a target was removed for it, and
the volume in which the entry is then moved. -/
structure ExtRenameGoes (config : Config) (calls : ExtCalls) (volume : ExtVolume)
    (fromDir : Nat) (fromName : Name) (toDir : Nat) (toName : Name) (ino : Nat) (removes : Bool)
    (left : ExtVolume) : Prop where
  fromValid : extReadValidInode (calls.fault (.readValid .fromDir)) volume fromDir =
    .ok (volume.inode fromDir)
  toValid : extReadValidInode (calls.fault (.readValid .toDir)) volume toDir =
    .ok (volume.inode toDir)
  fromIsDir : (volume.inode fromDir).isDir = true
  toIsDir : (volume.inode toDir).isDir = true
  fromLeaf : validLeafName fromName = true
  toLeaf : validLeafName toName = true
  fromShort : fromName.length ≤ 255
  toShort : toName.length ≤ 255
  sourceLookup : ext2fsLookup (calls.fault (.lookup .source)) volume fromDir fromName = .ok ino
  sourceValid : extReadValidInode (calls.fault (.readValid .source)) volume ino =
    .ok (volume.inode ino)
  target :
    (removes = false ∧ left = volume ∧
      ext2fsLookup (calls.fault (.lookup .target)) volume toDir toName = .error .fileNotFound) ∨
    (removes = true ∧ ∃ replaced,
      ext2fsLookup (calls.fault (.lookup .target)) volume toDir toName = .ok replaced ∧
      replaced ≠ ino ∧
      extReadValidInode (calls.fault (.readValid .target)) volume replaced =
        .ok (volume.inode replaced) ∧
      (volume.inode ino).isDir = (volume.inode replaced).isDir ∧
      (extRemoveTarget config calls volume toDir toName (volume.inode replaced).isDir).1.status =
        .ok ∧
      left = (extRemoveTarget config calls volume toDir toName (volume.inode replaced).isDir).2)

theorem extFtype_eq_dir (format : Format) : extFtype format = .dir ↔ format = .dir := by
  cases format <;> simp [extFtype]

theorem extOpGetattr_ok {config : Config} {fault : Option Errcode} {volume : ExtVolume} {ino : Nat}
    {attr : NfsAttr} (got : extOpGetattr config fault volume ino = .ok attr) :
    extReadValidInode fault volume ino = .ok (volume.inode ino) ∧
      attr = extFillAttr config ino (volume.inode ino) := by
  unfold extOpGetattr at got
  split at got
  · cases got
  · rename_i inode valid
    obtain ⟨-, -, -, rfl, -, -⟩ := extReadValidInode_ok valid
    cases got
    exact ⟨valid, rfl⟩

theorem extFillAttr_type (config : Config) (ino : Nat) (inode : ExtInode) :
    (extFillAttr config ino inode).type = .dir ↔ inode.isDir = true := by
  simp [extFillAttr, extFtype_eq_dir, ExtInode.isDir]

section Rename

variable {config : Config} {calls : ExtCalls} {volume : ExtVolume} {fromDir toDir : Nat}
  {fromName toName : Name}

/-- What a RENAME past its checks does is to move the entry. -/
theorem ExtRenameGoes.moves {ino : Nat} {removes : Bool} {left : ExtVolume}
    (goes : ExtRenameGoes config calls volume fromDir fromName toDir toName ino removes left) :
    extOpRename config calls volume fromDir fromName toDir toName =
      extMoveEntry config calls left fromDir fromName toDir toName ino (volume.inode ino)
        (attrToWccPre (extFillAttr config fromDir (volume.inode fromDir)))
        (attrToWccPre (extFillAttr config toDir (volume.inode toDir))) := by
  have fromAttr : extOpGetattr config (calls.fault (.readValid .fromDir)) volume fromDir =
      .ok (extFillAttr config fromDir (volume.inode fromDir)) := by
    simp [extOpGetattr, goes.fromValid]
  have toAttr : extOpGetattr config (calls.fault (.readValid .toDir)) volume toDir =
      .ok (extFillAttr config toDir (volume.inode toDir)) := by
    simp [extOpGetattr, goes.toValid]
  have fromType := (extFillAttr_type config fromDir (volume.inode fromDir)).mpr goes.fromIsDir
  have toType := (extFillAttr_type config toDir (volume.inode toDir)).mpr goes.toIsDir
  have short : ¬ (255 < fromName.length ∨ 255 < toName.length) := by
    have fromShort := goes.fromShort
    have toShort := goes.toShort
    omega
  simp only [extOpRename, fromAttr, toAttr, fromType, toType, goes.fromLeaf, goes.toLeaf, short,
    goes.sourceLookup, goes.sourceValid]
  rcases goes.target with ⟨-, rfl, missing⟩ | ⟨-, replaced, found, different, valid, kinds, removed,
    rfl⟩
  · simp [missing]
  · simp [found, different, valid, kinds, removed]

/-- A RENAME either leaves the volume as it is, refused or with nothing to do, or moves the
entry. -/
theorem extOpRename_cases (config : Config) (calls : ExtCalls) (volume : ExtVolume)
    (fromDir toDir : Nat) (fromName toName : Name) :
    ((extOpRename config calls volume fromDir fromName toDir toName).2 = volume ∧
      ((extOpRename config calls volume fromDir fromName toDir toName).1.status = .ok →
        validLeafName fromName = true ∧ validLeafName toName = true ∧
        ∃ ino, findEntry (volume.entries fromDir) fromName = some ino ∧
          findEntry (volume.entries toDir) toName = some ino)) ∨
    ∃ ino removes left,
      ExtRenameGoes config calls volume fromDir fromName toDir toName ino removes left := by
  unfold extOpRename
  simp only
  split
  swap
  · exact .inl ⟨rfl, by rintro ⟨⟩⟩
  rename_i fpre tpre fromGot toGot
  obtain ⟨fromValid, rfl⟩ := extOpGetattr_ok fromGot
  obtain ⟨toValid, rfl⟩ := extOpGetattr_ok toGot
  split
  · exact .inl ⟨rfl, by rintro ⟨⟩⟩
  rename_i types
  split
  · exact .inl ⟨rfl, by rintro ⟨⟩⟩
  rename_i leaves
  split
  · exact .inl ⟨rfl, by rintro ⟨⟩⟩
  rename_i lengths
  have fromLeaf : validLeafName fromName = true := by simpa using (not_or.mp leaves).1
  have toLeaf : validLeafName toName = true := by simpa using (not_or.mp leaves).2
  split
  · rename_i code _
    exact .inl ⟨rfl, fun bad => absurd bad (extErrToNfs3_ne_ok code)⟩
  rename_i ino found
  split
  · rename_i status invalid
    exact .inl ⟨rfl, fun bad => absurd bad (extReadValidInode_error_ne_ok invalid)⟩
  rename_i fin sourceValid
  obtain ⟨-, -, -, rfl, -, -⟩ := extReadValidInode_ok sourceValid
  have goes (removes : Bool) (left : ExtVolume) (target) :
      ExtRenameGoes config calls volume fromDir fromName toDir toName ino removes left :=
    { fromValid := fromValid, toValid := toValid
      fromIsDir := (extFillAttr_type config fromDir _).mp (by simpa using (not_or.mp types).1)
      toIsDir := (extFillAttr_type config toDir _).mp (by simpa using (not_or.mp types).2)
      fromLeaf := fromLeaf, toLeaf := toLeaf
      fromShort := by omega
      toShort := by omega
      sourceLookup := found, sourceValid := sourceValid, target := target }
  split
  · rename_i code missing
    split
    · exact .inl ⟨rfl, fun bad => absurd bad (extErrToNfs3_ne_ok code)⟩
    · rename_i notFound
      have same : code = .fileNotFound := by simpa using notFound
      subst same
      exact .inr ⟨ino, false, volume, goes false volume (.inl ⟨rfl, rfl, missing⟩)⟩
  rename_i replaced targetFound
  split
  · rename_i same
    subst same
    exact .inl ⟨rfl, fun _ => ⟨fromLeaf, toLeaf, replaced, (ext2fsLookup_ok fromLeaf found).2,
      (ext2fsLookup_ok toLeaf targetFound).2⟩⟩
  rename_i different
  split
  · rename_i status invalid
    exact .inl ⟨rfl, fun bad => absurd bad (extReadValidInode_error_ne_ok invalid)⟩
  rename_i tin targetValid
  obtain ⟨-, -, -, rfl, -, -⟩ := extReadValidInode_ok targetValid
  split
  · exact .inl ⟨rfl, by rintro ⟨⟩⟩
  rename_i notIntoFile
  split
  · exact .inl ⟨rfl, by rintro ⟨⟩⟩
  rename_i notIntoDir
  have kinds : (volume.inode ino).isDir = (volume.inode replaced).isDir := by
    revert notIntoFile notIntoDir
    cases (volume.inode ino).isDir <;> cases (volume.inode replaced).isDir <;> simp
  have unchanged : (extRemoveTarget config calls volume toDir toName
      (volume.inode replaced).isDir).1.status ≠ .ok →
      (extRemoveTarget config calls volume toDir toName (volume.inode replaced).isDir).2 = volume := by
    unfold extRemoveTarget
    split
    · exact extOpRmdir_refused
    · exact extOpRemove_refused
  split
  · rename_i refused
    exact .inl ⟨unchanged refused, fun bad => absurd bad refused⟩
  · rename_i removed
    exact .inr ⟨ino, true, _, goes true _ (.inr ⟨rfl, replaced, targetFound, different, targetValid,
      kinds, by simpa using removed, rfl⟩)⟩

end Rename

/-- The releasing half of REMOVE leaves every directory's entries and every `..` alone. -/
theorem extDropLink_entries (calls : ExtCalls) (volume : ExtVolume) (ino : Nat) (inode : ExtInode) :
    (extDropLink calls volume ino inode).entries = volume.entries ∧
      (extDropLink calls volume ino inode).dotdot = volume.dotdot := by
  unfold extDropLink ext2fsPunch ext2fsWriteInode
  cases calls.fault (.writeInode .child) <;> cases calls.fault .punch <;> simp only <;>
    split <;> (try split) <;> simp

theorem extReleaseDir_entries (calls : ExtCalls) (volume : ExtVolume) (dir ino : Nat)
    (inode : ExtInode) :
    (extReleaseDir calls volume dir ino inode).entries = volume.entries ∧
      (extReleaseDir calls volume dir ino inode).dotdot = volume.dotdot := by
  unfold extReleaseDir ext2fsPunch ext2fsWriteInode ext2fsReadInode
  cases calls.fault (.writeInode .child) <;> cases calls.fault .punch <;>
    cases calls.fault (.readInode .dir) <;> cases calls.fault (.writeInode .dir) <;> simp

/-- A target that is removed loses its entry, and nothing else in any directory changes. -/
theorem extRemoveTarget_ok {config : Config} {calls : ExtCalls} {volume : ExtVolume} {toDir : Nat}
    {toName : Name} {toIsDir : Bool}
    (removed : (extRemoveTarget config calls volume toDir toName toIsDir).1.status = .ok) :
    ∃ replaced, findEntry (volume.entries toDir) toName = some replaced ∧
      (extRemoveTarget config calls volume toDir toName toIsDir).2.entries =
        Function.update volume.entries toDir
          ((volume.entries toDir).erase ⟨toName, replaced⟩) ∧
      (extRemoveTarget config calls volume toDir toName toIsDir).2.dotdot = volume.dotdot := by
  unfold extRemoveTarget at removed ⊢
  split
  · rename_i isDir
    rw [if_pos isDir] at removed
    obtain ⟨ino, -, -, -, -, -, -, -, found, after⟩ := extOpRmdir_ok_cases removed
    obtain ⟨entries, dotdot⟩ := extReleaseDir_entries calls.inner
      (volume.setEntries toDir ((volume.entries toDir).erase ⟨toName, ino⟩)) toDir ino
      (volume.inode ino)
    refine ⟨ino, found, ?_, ?_⟩
    · rw [after, entries, entries_setEntries]
    · rw [after, dotdot, dotdot_setEntries]
  · rename_i isFile
    rw [if_neg isFile] at removed
    obtain ⟨ino, -, -, -, -, -, found, after⟩ := extOpRemove_ok_cases removed
    obtain ⟨entries, dotdot⟩ := extDropLink_entries calls.inner
      (volume.setEntries toDir ((volume.entries toDir).erase ⟨toName, ino⟩)) ino (volume.inode ino)
    have touched := editsInode_touchDir calls.inner .dir (extDropLink calls.inner
      (volume.setEntries toDir ((volume.entries toDir).erase ⟨toName, ino⟩)) ino (volume.inode ino))
      toDir
    refine ⟨ino, found, ?_, ?_⟩
    · rw [after, touched.entries, entries, entries_setEntries]
    · rw [after, touched.dotdot, dotdot, dotdot_setEntries]

/-- A link that fails has at most grown the directory; one that succeeds has added its
entry besides. -/
theorem extLinkWithExpand_cases (calls : ExtCalls) (role : Role) (volume : ExtVolume) (dir : Nat)
    (name : Name) (target : Nat) :
    ∃ grown, EditsInode dir volume grown ∧
      ((∃ code, extLinkWithExpand calls role volume dir name target = (some code, grown)) ∨
        extLinkWithExpand calls role volume dir name target =
          (none, grown.addEntry calls dir name target)) := by
  unfold extLinkWithExpand ext2fsLink
  cases calls.fault (.link role) with
  | none => exact ⟨_, editsInode_growDir volume dir _, .inr rfl⟩
  | some code =>
      simp only
      split
      · cases calls.fault (.expandDir role) with
        | some failed => exact ⟨volume, .refl dir volume, .inl ⟨failed, rfl⟩⟩
        | none =>
            have expanded := editsInode_growDir volume dir (calls.newBlocks (.expandDir role))
            cases calls.fault (.relink role) with
            | some again => exact ⟨_, expanded, .inl ⟨again, rfl⟩⟩
            | none => exact ⟨_, expanded.trans (editsInode_growDir _ dir _), .inr rfl⟩
      · exact ⟨volume, .refl dir volume, .inl ⟨code, rfl⟩⟩

theorem extMoveDirCounts_fields (calls : ExtCalls) (volume : ExtVolume) (fromDir toDir : Nat) :
    (extMoveDirCounts calls volume fromDir toDir).entries = volume.entries ∧
      (extMoveDirCounts calls volume fromDir toDir).dotdot = volume.dotdot ∧
      (extMoveDirCounts calls volume fromDir toDir).inodeMap = volume.inodeMap ∧
      (extMoveDirCounts calls volume fromDir toDir).inodesCount = volume.inodesCount ∧
      (extMoveDirCounts calls volume fromDir toDir).content = volume.content := by
  unfold extMoveDirCounts ext2fsReadInode ext2fsWriteInode
  cases calls.fault (.readInode .fromDir) <;> cases calls.fault (.writeInode .fromDir) <;>
    cases calls.fault (.readInode .toDir) <;> cases calls.fault (.writeInode .toDir) <;> simp

/-- The entries and the `..` records after the new parent was written down. -/
theorem extReparent_fields (calls : ExtCalls) (volume : ExtVolume) (fromDir toDir ino : Nat)
    (inode : ExtInode) :
    (extReparent calls volume fromDir toDir ino inode).entries = volume.entries ∧
      (extReparent calls volume fromDir toDir ino inode).inodeMap = volume.inodeMap ∧
      (extReparent calls volume fromDir toDir ino inode).inodesCount = volume.inodesCount ∧
      (extReparent calls volume fromDir toDir ino inode).content = volume.content ∧
      (extReparent calls volume fromDir toDir ino inode).dotdot =
        if inode.isDir = true ∧ fromDir ≠ toDir ∧ calls.fault (.iterate .source) = none then
          Function.update volume.dotdot ino toDir
        else volume.dotdot := by
  unfold extReparent
  by_cases moves : inode.isDir = true ∧ fromDir ≠ toDir
  · rw [if_pos moves]
    cases calls.fault (.iterate .source) with
    | none =>
        have counted := extMoveDirCounts_fields calls (volume.setDotdot ino toDir) fromDir toDir
        simp [counted, moves]
    | some code =>
        have counted := extMoveDirCounts_fields calls volume fromDir toDir
        simp [counted]
  · rw [if_neg moves]
    have still : ¬ (inode.isDir = true ∧ fromDir ≠ toDir ∧ calls.fault (.iterate .source) = none) :=
      fun all => moves ⟨all.1, all.2.1⟩
    simp only [if_neg still, and_self]

section Move

variable (config : Config) (calls : ExtCalls) (left : ExtVolume) (fromDir toDir : Nat)
  (fromName toName : Name) (ino : Nat) (inode : ExtInode) (fromPre toPre : WccPre)

/-- The volume that a completed move leaves. -/
def extMoved (unlinked : ExtVolume) : ExtVolume :=
  let touched := extTouchDir calls .touchFrom
    (extReparent calls unlinked fromDir toDir ino inode) fromDir
  if toDir ≠ fromDir then extTouchDir calls .touchTo touched toDir else touched

/-- The three courses of moving an entry that is there: the link fails, the unlink fails
after it, or both succeed. -/
theorem extMoveEntry_cases (present : (⟨fromName, ino⟩ : DirEntry Name) ∈ left.entries fromDir) :
    let result := extMoveEntry config calls left fromDir fromName toDir toName ino inode fromPre toPre
    let link := extLinkWithExpand calls .target left toDir toName ino
    (∃ code, link.1 = some code ∧ result.1.status ≠ .ok ∧ result.2 = link.2) ∨
    (link.1 = none ∧ ∃ code, calls.fault (.unlink .source) = some code ∧
      result.1.status ≠ .ok ∧ result.2 = link.2) ∨
    (link.1 = none ∧ calls.fault (.unlink .source) = none ∧ result.1.status = .ok ∧
      result.2 = extMoved calls fromDir toDir ino inode
        (link.2.setEntries fromDir ((link.2.entries fromDir).erase ⟨fromName, ino⟩))) := by
  simp only [extMoveEntry]
  obtain ⟨grown, edit, ⟨code, failed⟩ | linked⟩ :=
    extLinkWithExpand_cases calls .target left toDir toName ino
  · left
    rw [failed]
    exact ⟨code, rfl, extErrToNfs3_ne_ok code, rfl⟩
  · right
    have still : (⟨fromName, ino⟩ : DirEntry Name) ∈
        (grown.addEntry calls toDir toName ino).entries fromDir := by
      by_cases same : fromDir = toDir
      · subst same
        simp only [addEntry_fields, Function.update_self, mem_insertEntry, edit.entries]
        exact .inr present
      · simp only [addEntry_fields, Function.update_of_ne same, edit.entries]
        exact present
    rw [linked]
    unfold ext2fsUnlink
    cases calls.fault (.unlink .source) with
    | some code => exact .inl ⟨rfl, code, rfl, extErrToNfs3_ne_ok code, rfl⟩
    | none =>
        simp only [if_pos still]
        exact .inr ⟨trivial, trivial, trivial, rfl⟩

end Move

theorem extMoved_fields (calls : ExtCalls) (fromDir toDir ino : Nat) (inode : ExtInode)
    (unlinked : ExtVolume) :
    (extMoved calls fromDir toDir ino inode unlinked).entries = unlinked.entries ∧
      (extMoved calls fromDir toDir ino inode unlinked).dotdot =
        if inode.isDir = true ∧ fromDir ≠ toDir ∧ calls.fault (.iterate .source) = none then
          Function.update unlinked.dotdot ino toDir
        else unlinked.dotdot := by
  obtain ⟨entries, -, -, -, dotdot⟩ := extReparent_fields calls unlinked fromDir toDir ino inode
  have first := editsInode_touchDir calls .touchFrom
    (extReparent calls unlinked fromDir toDir ino inode) fromDir
  have second := editsInode_touchDir calls .touchTo (extTouchDir calls .touchFrom
    (extReparent calls unlinked fromDir toDir ino inode) fromDir) toDir
  unfold extMoved
  simp only
  split
  · rw [second.entries, first.entries, entries, second.dotdot, first.dotdot, dotdot]
    exact ⟨rfl, rfl⟩
  · rw [first.entries, entries, first.dotdot, dotdot]
    exact ⟨rfl, rfl⟩

end Rufux.Mountd
