import Rufux.Mountd.Ext.Effects
import Rufux.Mountd.Ntfs.Effects
import Rufux.Mountd.Server

/-!
What WRITE leaves in a regular file, on either backend.
-/

namespace Rufux.Mountd

open Rufux.Library

/-- A number that opens as a regular file with these bytes; the recorded size is theirs. -/
def IsFile (volume : Volume) (ino : Nat) (bytes : List UInt8) : Prop :=
  match volume with
  | .ntfs mount =>
      ∃ record, ntfsInodeOpen none mount.volume ino = .ok record ∧ record.isDir = false ∧
        record.symlink = none ∧ record.data = some bytes
  | .ext volume =>
      ∃ inode, extReadValidInode none volume ino = .ok inode ∧ inode.isReg = true ∧
        inode.size = bytes.length ∧ volume.content ino = bytes

section Ext

variable (calls : ExtCalls) (ino : Nat)

theorem extWriteLoop_status_ne_ok (fuel turn pos : Nat) (data : List UInt8) (volume : ExtVolume)
    {status : Nfsstat} {written : ExtVolume}
    (stopped : extWriteLoop calls ino fuel turn pos data volume = (some status, written)) :
    status ≠ .ok := by
  induction fuel generalizing turn pos data volume with
  | zero => cases stopped
  | succ fuel ih =>
      rw [extWriteLoop] at stopped
      split at stopped
      · cases stopped
      · simp only at stopped
        split at stopped
        · rename_i code _
          cases stopped
          exact extErrToNfs3_ne_ok code
        · split at stopped
          · cases stopped
            decide
          · exact ih _ _ _ _ stopped

theorem ext2fsFileWrite_content (turn : Nat) (volume : ExtVolume) (pos : Nat)
    (bytes : List UInt8) :
    (ext2fsFileWrite calls turn volume ino pos bytes).content ino =
      splice 0 (volume.content ino) pos bytes := by
  simp [ext2fsFileWrite]

theorem ext2fsFileWrite_size (turn : Nat) (volume : ExtVolume) (pos : Nat) (bytes : List UInt8)
    (sized : (volume.inode ino).size = (volume.content ino).length) :
    ((ext2fsFileWrite calls turn volume ino pos bytes).inode ino).size =
      ((ext2fsFileWrite calls turn volume ino pos bytes).content ino).length := by
  rw [ext2fsFileWrite_content]
  by_cases empty : bytes = []
  · subst empty
    simp [ext2fsFileWrite, ExtVolume.claimBlocks_inode, sized]
  · rw [splice_length _ _ _ _ empty]
    simp [ext2fsFileWrite, ExtVolume.claimBlocks_inode, empty, sized]

theorem extWriteLoop_size (fuel turn pos : Nat) (data : List UInt8) (volume : ExtVolume)
    (sized : (volume.inode ino).size = (volume.content ino).length) :
    ((extWriteLoop calls ino fuel turn pos data volume).2.inode ino).size =
      ((extWriteLoop calls ino fuel turn pos data volume).2.content ino).length := by
  induction fuel generalizing turn pos data volume with
  | zero => exact sized
  | succ fuel ih =>
      have stored := ext2fsFileWrite_size calls ino turn volume pos (data.take (calls.chunk turn))
        sized
      rw [extWriteLoop]
      split
      · exact sized
      · simp only
        split
        · exact stored
        · split
          · exact stored
          · exact ih _ _ _ _ stored

/-- A loop that runs to its end has stored all of its data at its position. -/
theorem extWriteLoop_done (fuel turn pos : Nat) (data : List UInt8) (volume : ExtVolume)
    {written : ExtVolume} (enough : data.length ≤ fuel)
    (finished : extWriteLoop calls ino fuel turn pos data volume = (none, written)) :
    written.content ino = splice 0 (volume.content ino) pos data := by
  induction fuel generalizing turn pos data volume with
  | zero =>
      have empty : data = [] := List.length_eq_zero_iff.mp (by omega)
      subst empty
      cases finished
      rfl
  | succ fuel ih =>
      rw [extWriteLoop] at finished
      split at finished
      · rename_i empty
        subst empty
        cases finished
        rfl
      · simp only at finished
        split at finished
        · cases finished
        · split at finished
          · cases finished
          · rename_i moving
            have progress := List.length_pos_iff.mpr moving
            have rest := ih (turn + 1) _ _ _ (by rw [List.length_drop]; omega) finished
            rw [ext2fsFileWrite_content, splice_take_drop 0 _ data pos _ moving] at rest
            exact rest

theorem extFinishWrite_content (config : Config) (volume : ExtVolume) (stable : StableHow) :
    (extFinishWrite config calls volume ino stable).2.content = volume.content ∧
      ((extFinishWrite config calls volume ino stable).2.inode ino).size =
        (volume.inode ino).size := by
  unfold extFinishWrite ext2fsReadInode ext2fsWriteInode ext2fsFlush
  cases calls.fault (.readInode .post) <;> cases calls.fault (.writeInode .post) <;>
    cases calls.fault .flush <;> cases stable <;> simp

end Ext

/-- A successful WRITE ran its loop to the end, and every later step too. -/
theorem extOpWrite_ok_cases (config : Config) (calls : ExtCalls) (volume : ExtVolume)
    (ino offset : Nat) (data : List UInt8) (stable : StableHow)
    (succeeded : (extOpWrite config calls volume ino offset data stable).1.status = .ok) :
    ∃ written, extWriteLoop calls ino data.length 0 offset data volume = (none, written) ∧
      (extOpWrite config calls volume ino offset data stable).1.written = data.length ∧
      (extOpWrite config calls volume ino offset data stable).2 =
        (extFinishWrite config calls written ino stable).2 := by
  unfold extOpWrite at succeeded ⊢
  split
  · rename_i status invalid
    rw [invalid] at succeeded
    exact absurd succeeded (extReadValidInode_error_ne_ok invalid)
  rename_i inode valid
  simp only [valid] at succeeded ⊢
  split
  · rename_i directory
    simp [directory] at succeeded
  rename_i notDirectory
  split
  · rename_i notRegular
    simp [notDirectory, notRegular] at succeeded
  rename_i regular
  simp only [notDirectory, regular, if_false] at succeeded
  split
  · rename_i code opened
    simp only [opened] at succeeded
    exact absurd succeeded (extErrToNfs3_ne_ok code)
  rename_i opened
  simp only [opened] at succeeded
  split
  · rename_i code sought
    simp only [sought] at succeeded
    exact absurd succeeded (extErrToNfs3_ne_ok code)
  rename_i sought
  simp only [sought] at succeeded
  split
  · rename_i status written stopped
    simp only [stopped] at succeeded
    exact absurd succeeded (extWriteLoop_status_ne_ok calls ino _ _ _ _ _ stopped)
  rename_i written finished
  simp only [finished] at succeeded
  split
  · rename_i code flushed
    simp only [flushed] at succeeded
    exact absurd succeeded (extErrToNfs3_ne_ok code)
  rename_i flushed
  simp only [flushed] at succeeded
  split
  · rename_i code closed
    simp only [closed] at succeeded
    exact absurd succeeded (extErrToNfs3_ne_ok code)
  exact ⟨written, finished, rfl, rfl⟩

theorem isFile_ext_iff {volume : ExtVolume} {ino : Nat} {bytes : List UInt8} :
    IsFile (.ext volume) ino bytes ↔
      (∃ inode, extReadValidInode none volume ino = .ok inode ∧ inode.isReg = true) ∧
        (volume.inode ino).size = bytes.length ∧ volume.content ino = bytes := by
  constructor
  · rintro ⟨inode, valid, regular, sized, stored⟩
    have same := (extReadValidInode_ok valid).2.2.2.1
    exact ⟨⟨inode, valid, regular⟩, same ▸ sized, stored⟩
  · rintro ⟨⟨inode, valid, regular⟩, sized, stored⟩
    have same := (extReadValidInode_ok valid).2.2.2.1
    exact ⟨inode, valid, regular, same ▸ sized, stored⟩

/-- An edit of the inode keeps it a file; only size and bytes are left to check. -/
theorem ExtVolume.EditsInode.isReg {ino : Nat} {before after : ExtVolume}
    (edit : EditsInode ino before after)
    (file : ∃ inode, extReadValidInode none before ino = .ok inode ∧ inode.isReg = true) :
    ∃ inode, extReadValidInode none after ino = .ok inode ∧ inode.isReg = true := by
  obtain ⟨inode, valid, regular⟩ := file
  obtain ⟨lower, upper, used, rfl, linked, -⟩ := extReadValidInode_ok valid
  refine ⟨after.inode ino, extReadValidInode_of_valid lower ?_ ?_ ?_, ?_⟩
  · rw [edit.inodesCount]
    exact upper
  · rw [edit.inodeMap]
    exact used
  · rw [edit.linksCount]
    exact linked
  · simpa only [ExtInode.isReg, edit.format] using regular

theorem extOpWrite_isFile (config : Config) (calls : ExtCalls) (volume : ExtVolume)
    (ino offset : Nat) (data bytes : List UInt8) (stable : StableHow)
    (file : IsFile (.ext volume) ino bytes)
    (succeeded : (extOpWrite config calls volume ino offset data stable).1.status = .ok) :
    (extOpWrite config calls volume ino offset data stable).1.written = data.length ∧
      IsFile (.ext (extOpWrite config calls volume ino offset data stable).2) ino
        (splice 0 bytes offset data) := by
  obtain ⟨present, sized, stored⟩ := isFile_ext_iff.mp file
  obtain ⟨written, finished, count, after⟩ :=
    extOpWrite_ok_cases config calls volume ino offset data stable succeeded
  have spliced := extWriteLoop_done calls ino data.length 0 offset data volume
    (Nat.le_refl _) finished
  have length := extWriteLoop_size calls ino data.length 0 offset data volume
    (by rw [sized, stored])
  rw [finished] at length
  obtain ⟨sameContent, sameSize⟩ := extFinishWrite_content calls ino config written stable
  refine ⟨count, isFile_ext_iff.mpr ⟨?_, ?_, ?_⟩⟩
  · exact (editsInode_opWrite config calls volume ino offset data stable).isReg present
  · rw [after, sameSize, length, spliced, stored]
  · rw [after, sameContent, spliced, stored]

section Ntfs

variable (calls : NtfsCalls)

theorem ntfsWriteLoop_status_ne_ok (fuel turn pos : Nat) (data : List UInt8) (record : NtfsRecord)
    {status : Nfsstat} {written : NtfsRecord}
    (stopped : ntfsWriteLoop calls fuel turn pos data record = (some status, written)) :
    status ≠ .ok := by
  induction fuel generalizing turn pos data record with
  | zero => cases stopped
  | succ fuel ih =>
      rw [ntfsWriteLoop] at stopped
      split at stopped
      · cases stopped
      · simp only at stopped
        split at stopped
        · rename_i code _
          cases stopped
          exact errnoToNfs3_ne_ok code
        · split at stopped
          · cases stopped
            decide
          · exact ih _ _ _ _ stopped

theorem toS64_nonneg {value : Nat} (bound : value < 2 ^ 64) (nonneg : 0 ≤ toS64 value) :
    value < 2 ^ 63 ∧ (toS64 value).toNat = value := by
  unfold toS64 at nonneg ⊢
  split at nonneg
  · rename_i small
    exact ⟨small, by rw [if_pos small]; rfl⟩
  · omega

theorem ntfsWriteLoop_done (fuel turn pos : Nat) (data bytes : List UInt8) (record : NtfsRecord)
    {written : NtfsRecord} (enough : data.length ≤ fuel) (start : pos < 2 ^ 64)
    (short : data.length ≤ 2 ^ 63) (stored : record.data = some bytes)
    (finished : ntfsWriteLoop calls fuel turn pos data record = (none, written)) :
    written.data = some (splice 0 bytes pos data) := by
  induction fuel generalizing turn pos data bytes record with
  | zero =>
      have empty : data = [] := List.length_eq_zero_iff.mp (by omega)
      subst empty
      cases finished
      exact stored
  | succ fuel ih =>
      rw [ntfsWriteLoop] at finished
      split at finished
      · rename_i empty
        subst empty
        cases finished
        exact stored
      · simp only at finished
        split at finished
        · cases finished
        · rename_i next moveStored
          obtain ⟨nonneg, rfl⟩ := ntfsAttrPwrite_ok moveStored
          split at finished
          · cases finished
          · rename_i moving
            rw [Nat.mod_eq_of_lt start] at nonneg finished
            obtain ⟨small, value⟩ := toS64_nonneg start nonneg
            have progress := List.length_pos_iff.mpr moving
            have part : (data.take (calls.chunk turn)).length ≤ data.length :=
              List.length_take_le' _ _
            rw [value, stored] at finished
            have rest := ih (turn + 1) _ _ _ _ (by rw [List.length_drop]; omega) (by omega)
              (by rw [List.length_drop]; omega) rfl finished
            rw [rest, Option.getD_some, splice_take_drop 0 bytes data pos _ moving]

/-- The file that `ntfs_op_write` hands to its loop is grown exactly when the offset, read
as a signed number, lies past its end. -/
theorem ntfsGrowToOffset_ok {bytes : List UInt8} {record grown : NtfsRecord} {offset : Nat}
    (bound : offset < 2 ^ 64) (stored : record.data = some bytes)
    (succeeded : ntfsGrowToOffset calls bytes record offset = .ok grown) :
    record.SameKind grown ∧ grown.data = some
      (if (bytes.length : Int) < toS64 offset then resize 0 bytes offset else bytes) := by
  unfold ntfsGrowToOffset ntfsAttrTruncate at succeeded
  split at succeeded
  · rename_i past
    split at succeeded
    · cases succeeded
    · split at succeeded
      · cases succeeded
      · cases succeeded
        rw [if_pos past]
        rw [(toS64_nonneg bound (by omega)).2]
        exact ⟨⟨rfl, rfl, rfl⟩, rfl⟩
  · rename_i inside
    cases succeeded
    rw [if_neg inside]
    exact ⟨.refl record, stored⟩

end Ntfs

/-- What a successful WRITE leaves of a file on NTFS: the specified bytes, except that a
write of nothing past the end leaves the file grown to its offset. -/
def ntfsLeft (bytes : List UInt8) (offset : Nat) (data : List UInt8) : List UInt8 :=
  if data = [] ∧ (bytes.length : Int) < toS64 offset then resize 0 bytes offset
  else splice 0 bytes offset data

theorem ntfsAttrOpen_ok {fault : Option Errno} {record : NtfsRecord} {bytes : List UInt8}
    (opened : ntfsAttrOpen fault record = .ok bytes) : record.data = some bytes := by
  unfold ntfsAttrOpen at opened
  split at opened
  · cases opened
  · split at opened
    · cases opened
    · rename_i stored
      cases opened
      exact stored

/-- The record as a successful `ntfs_op_write` stamps it before it closes it. -/
def ntfsStamped (calls : NtfsCalls) (mount : NtfsMount) (ino : Nat) (left : NtfsRecord) :
    NtfsMount :=
  mount.setVolume (mount.volume.setRecord (mref ino)
    (some { left with mtime := calls.now, ctime := calls.now }))

/-- A successful WRITE opened a regular file, ran its loop to the end and closed the record. -/
theorem ntfsOpWrite_ok_cases (config : Config) (calls : NtfsCalls) (mount : NtfsMount)
    (ino offset : Nat) (data : List UInt8) (stable : StableHow)
    (succeeded : (ntfsOpWrite config calls mount ino offset data stable).1.status = .ok) :
    ∃ record hasParent opened bytes grown left,
      ntfsInodeOpen (calls.fault (.openInode .child)) mount.volume ino = .ok record ∧
      opened.volume = mount.volume ∧ record.isDir = false ∧ record.symlink = none ∧
      record.data = some bytes ∧ ntfsGrowToOffset calls bytes record offset = .ok grown ∧
      ntfsWriteLoop calls data.length 0 offset data grown = (none, left) ∧
      (ntfsFinishWrite calls (ntfsStamped calls opened ino left) hasParent stable).1 = .ok ∧
      (ntfsOpWrite config calls mount ino offset data stable).1.written = data.length ∧
      (ntfsOpWrite config calls mount ino offset data stable).2 =
        (ntfsFinishWrite calls (ntfsStamped calls opened ino left) hasParent stable).2 := by
  have untouched := ntfsOpenWithParent_volume calls mount ino
  unfold ntfsOpWrite at succeeded ⊢
  split
  · rename_i opened found
    rw [found] at succeeded
    cases succeeded
  rename_i record hasParent opened found
  simp only [found] at succeeded untouched ⊢
  split
  · rename_i directory
    simp [directory] at succeeded
  rename_i notDir
  split
  · rename_i link
    simp [notDir, link] at succeeded
  rename_i notLink
  simp only [notDir, notLink] at succeeded
  split
  · rename_i code refused
    simp only [refused] at succeeded
    exact absurd succeeded (errnoToNfs3_ne_ok code)
  rename_i bytes dataOpen
  simp only [dataOpen] at succeeded
  split
  · rename_i code refused
    simp only [refused] at succeeded
    exact absurd succeeded (errnoToNfs3_ne_ok code)
  rename_i grown grew
  simp only [grew] at succeeded
  split
  · rename_i status left stopped
    simp only [stopped] at succeeded
    exact absurd succeeded (ntfsWriteLoop_status_ne_ok calls _ _ _ _ _ stopped)
  rename_i left finished
  simp only [finished] at succeeded
  refine ⟨record, hasParent, opened, bytes, grown, left, ntfsOpenWithParent_record found, untouched,
    by simpa using notDir, by simpa using notLink, ntfsAttrOpen_ok dataOpen, grew, finished,
    succeeded, if_pos succeeded, rfl⟩

theorem ntfsOpWrite_isFile (config : Config) (calls : NtfsCalls) (mount : NtfsMount)
    (ino offset : Nat) (data bytes : List UInt8) (stable : StableHow)
    (bound : offset < 2 ^ 64) (short : data.length ≤ 2 ^ 63)
    (file : IsFile (.ntfs mount) ino bytes)
    (succeeded : (ntfsOpWrite config calls mount ino offset data stable).1.status = .ok) :
    (ntfsOpWrite config calls mount ino offset data stable).1.written = data.length ∧
      IsFile (.ntfs (ntfsOpWrite config calls mount ino offset data stable).2) ino
        (ntfsLeft bytes offset data) := by
  obtain ⟨record, hasParent, opened, found, grown, left, opens, untouched, notDir, notLink, stored,
    grew, finished, closed, count, after⟩ :=
    ntfsOpWrite_ok_cases config calls mount ino offset data stable succeeded
  obtain ⟨original, opensPlain, -, -, storedPlain⟩ := file
  obtain ⟨-, present, sequence⟩ := ntfsInodeOpen_ok opensPlain
  obtain ⟨-, same, -⟩ := ntfsInodeOpen_ok opens
  rw [present] at same
  cases same
  rw [storedPlain] at stored
  cases stored
  have looped := ntfsWriteLoop_sameKind calls data.length 0 offset data grown
  rw [finished] at looped
  obtain ⟨kind, grownData⟩ := ntfsGrowToOffset_ok calls bound storedPlain grew
  have whole := kind.trans looped
  have bytesLeft := ntfsWriteLoop_done calls data.length 0 offset data _ grown (Nat.le_refl _)
    bound short grownData finished
  obtain ⟨records, sequences⟩ := ntfsFinishWrite_record calls
    (ntfsStamped calls opened ino left) hasParent stable
  refine ⟨count, { left with mtime := calls.now, ctime := calls.now },
    ntfsInodeOpen_of_record ?_ ?_, ?_, ?_, ?_⟩
  · rw [after, records]
    simp [ntfsStamped]
  · rw [after, sequences]
    simpa [ntfsStamped, untouched] using sequence
  · simpa only [notDir] using whole.isDir
  · simpa only [notLink] using whole.symlink
  · rw [ntfsLeft]
    simp only [bytesLeft]
    by_cases past : (bytes.length : Int) < toS64 offset
    · rw [if_pos past]
      by_cases empty : data = []
      · rw [if_pos ⟨empty, past⟩, empty, splice_nil]
      · obtain ⟨-, value⟩ := toS64_nonneg bound (by omega)
        rw [if_neg (by simp [empty]), splice_resize 0 bytes data offset empty (by omega)]
    · rw [if_neg past, if_neg (by simp [past])]

theorem ntfsOpWrite_nothing_ok (config : Config) (calls : NtfsCalls) (mount : NtfsMount)
    (ino offset : Nat) (bytes : List UInt8) (stable : StableHow) (quiet : calls.NoFault)
    (file : IsFile (.ntfs mount) ino bytes) :
    (ntfsOpWrite config calls mount ino offset [] stable).1.status = .ok := by
  obtain ⟨record, opens, notDir, notLink, stored⟩ := file
  have silent : ∀ site, calls.fault site = none := quiet
  rw [← silent (.openInode .child)] at opens
  obtain ⟨hasParent, opened, found⟩ := ntfsOpenWithParent_of_open opens
  have closes : ntfsCloseWithParent calls hasParent = true := by
    simp [ntfsCloseWithParent, silent]
  have grows : ∃ grown, ntfsGrowToOffset calls bytes record offset = .ok grown := by
    unfold ntfsGrowToOffset
    split
    · rename_i past
      have nonneg : ¬ toS64 offset < 0 := by omega
      simp [ntfsAttrTruncate, silent, nonneg]
    · exact ⟨record, rfl⟩
  obtain ⟨grown, grew⟩ := grows
  simp [ntfsOpWrite, found, notDir, notLink, ntfsAttrOpen, silent, stored, grew, ntfsWriteLoop,
    ntfsFinishWrite, closes]

theorem IsFile.unique {volume : Volume} {ino : Nat} {first second : List UInt8}
    (left : IsFile volume ino first) (right : IsFile volume ino second) : first = second := by
  cases volume with
  | ntfs mount =>
      obtain ⟨record, opens, -, -, stored⟩ := left
      obtain ⟨other, opensToo, -, -, storedToo⟩ := right
      rw [opens] at opensToo
      cases opensToo
      rw [stored] at storedToo
      exact Option.some.inj storedToo
  | ext volume =>
      obtain ⟨-, -, -, -, stored⟩ := left
      obtain ⟨-, -, -, -, storedToo⟩ := right
      rw [← stored, ← storedToo]

structure WriteArgs where
  offset : Nat
  count : Nat
  stable : StableHow
  data : List UInt8

/-- The data that a WRITE sends, cut to its count. -/
def WriteArgs.sent (args : WriteArgs) : List UInt8 := args.data.take (min args.count args.data.length)

/-- Offset and count as they come off the wire. -/
structure WriteArgs.InRange (args : WriteArgs) : Prop where
  offset : args.offset < 2 ^ 64
  count : args.count < 2 ^ 32

def WriteArgs.request (args : WriteArgs) (fh : Handle) : Request :=
  .write fh args.offset args.count args.stable args.data

/-- A WRITE that carries nothing to a place past the end of an NTFS file. -/
def EmptyPastEnd (isNtfs : Bool) (bytes : List UInt8) (args : WriteArgs) : Prop :=
  isNtfs = true ∧ args.sent = [] ∧ bytes.length < args.offset ∧ args.offset < 2 ^ 63

/-- Whatever the library does, a WRITE answered with success and a count has overwritten
the file with that much of the data. -/
def WriteExact (server : Server) (volume : Volume) (fh : Handle) (ino : Nat)
    (bytes : List UInt8) (args : WriteArgs) : Prop :=
  ∀ calls,
    let done := handleProc server calls volume (args.request fh)
    done.1.status = .ok →
      ∃ after, IsFile done.2 ino after ∧
        after = splice 0 bytes args.offset (args.sent.take done.1.written) ∧
        after.length =
          if done.1.written = 0 then bytes.length
          else max bytes.length (args.offset + done.1.written)

theorem handleProc_write (server : Server) (calls : Calls) (volume : Volume) (fh : Handle)
    (ino : Nat) (args : WriteArgs) (decoded : xdrGetFh fh = some ino) :
    let result := fsWrite server calls volume ino args.offset args.sent args.stable
    handleProc server calls volume (args.request fh) =
      (.write result.1.status result.1.pre result.1.post result.1.written result.1.committed,
        result.2) := by
  simp only [WriteArgs.request, handleProc, decoded, handleWrite, WriteArgs.sent]

/-- What a successful WRITE leaves, on either backend. -/
theorem fsWrite_isFile (server : Server) (calls : Calls) (volume : Volume) (ino : Nat)
    (bytes : List UInt8) (args : WriteArgs) (ranges : args.InRange)
    (file : IsFile volume ino bytes)
    (succeeded : (fsWrite server calls volume ino args.offset args.sent args.stable).1.status = .ok) :
    (fsWrite server calls volume ino args.offset args.sent args.stable).1.written =
        args.sent.length ∧
      (¬ EmptyPastEnd volume.isNtfs bytes args →
        IsFile (fsWrite server calls volume ino args.offset args.sent args.stable).2 ino
          (splice 0 bytes args.offset args.sent)) := by
  cases volume with
  | ntfs mount =>
      have size : args.sent.length ≤ 2 ^ 63 := by
        have counted := ranges.count
        rw [WriteArgs.sent, List.length_take]
        omega
      obtain ⟨count, left⟩ := ntfsOpWrite_isFile server.config calls.ntfs mount ino args.offset
        args.sent bytes args.stable ranges.offset size file succeeded
      refine ⟨count, fun inside => ?_⟩
      have exact : ntfsLeft bytes args.offset args.sent = splice 0 bytes args.offset args.sent := by
        rw [ntfsLeft, if_neg]
        rintro ⟨empty, past⟩
        obtain ⟨small, value⟩ := toS64_nonneg ranges.offset (by omega)
        exact inside ⟨rfl, empty, by omega, small⟩
      rw [← exact]
      exact left
  | ext volume =>
      obtain ⟨count, left⟩ := extOpWrite_isFile server.config calls.ext volume ino args.offset
        args.sent bytes args.stable file succeeded
      exact ⟨count, fun _ => left⟩

theorem writeExact_of_inside (server : Server) (volume : Volume) (fh : Handle) (ino : Nat)
    (bytes : List UInt8) (args : WriteArgs) (decoded : xdrGetFh fh = some ino)
    (ranges : args.InRange) (file : IsFile volume ino bytes)
    (inside : ¬ EmptyPastEnd volume.isNtfs bytes args) :
    WriteExact server volume fh ino bytes args := by
  intro calls done succeeded
  have shape := handleProc_write server calls volume fh ino args decoded
  simp only [done, shape] at succeeded ⊢
  obtain ⟨count, left⟩ := fsWrite_isFile server calls volume ino bytes args ranges file succeeded
  have whole : args.sent.take args.sent.length = args.sent := List.take_length
  refine ⟨_, left inside, ?_, ?_⟩
  · simp only [Reply.written, count, whole]
  · simp only [Reply.written, count]
    by_cases empty : args.sent = []
    · simp [empty]
    · rw [splice_length 0 bytes _ _ empty, if_neg (by simpa using empty)]

/-- The empty WRITE past the end of an NTFS file is answered with success and grows it. -/
theorem not_writeExact_of_past (server : Server) (volume : Volume) (fh : Handle) (ino : Nat)
    (bytes : List UInt8) (args : WriteArgs) (decoded : xdrGetFh fh = some ino)
    (ranges : args.InRange) (file : IsFile volume ino bytes)
    (past : EmptyPastEnd volume.isNtfs bytes args) : ¬ WriteExact server volume fh ino bytes args := by
  obtain ⟨backend, empty, longer, small⟩ := past
  obtain ⟨mount, rfl⟩ : ∃ mount, volume = .ntfs mount := by
    cases volume with
    | ntfs mount => exact ⟨mount, rfl⟩
    | ext volume => cases backend
  intro claimed
  have signed : toS64 args.offset = args.offset := by
    rw [toS64, if_pos small]
  have succeeded := ntfsOpWrite_nothing_ok server.config (.quiet 0) mount ino args.offset bytes
    args.stable (fun _ => rfl) file
  obtain ⟨count, grown⟩ := ntfsOpWrite_isFile server.config (.quiet 0) mount ino args.offset []
    bytes args.stable ranges.offset (by simp) file succeeded
  have shape := handleProc_write server (.quiet 0) (.ntfs mount) fh ino args decoded
  simp only [empty] at shape
  obtain ⟨after, left, same, -⟩ := claimed (.quiet 0) (by
    rw [shape]
    exact succeeded)
  rw [empty, List.take_nil, splice_nil] at same
  rw [shape] at left
  have stretched := congrArg List.length (left.unique grown)
  rw [same, ntfsLeft, if_pos ⟨rfl, by omega⟩, resize_length] at stretched
  omega

/-- A sequence of WRITE requests through one handle, all of them answered with success. -/
def writeRun (server : Server) (fh : Handle) : Volume → List (WriteArgs × Calls) → Option Volume
  | volume, [] => some volume
  | volume, (args, calls) :: rest =>
      if (handleProc server calls volume (args.request fh)).1.status = .ok then
        writeRun server fh (handleProc server calls volume (args.request fh)).2 rest
      else none

/-- The bytes that a sequence of writes should leave. -/
def writtenBytes : List UInt8 → List WriteArgs → List UInt8
  | bytes, [] => bytes
  | bytes, args :: rest => writtenBytes (splice 0 bytes args.offset args.sent) rest

/-- No write of the sequence carries nothing past the end the file then has. -/
def NeverEmptyPastEnd (isNtfs : Bool) : List UInt8 → List WriteArgs → Prop
  | _, [] => True
  | bytes, args :: rest =>
      ¬ EmptyPastEnd isNtfs bytes args ∧
        NeverEmptyPastEnd isNtfs (splice 0 bytes args.offset args.sent) rest

theorem fsWrite_isNtfs (server : Server) (calls : Calls) (volume : Volume) (ino offset : Nat)
    (data : List UInt8) (stable : StableHow) :
    (fsWrite server calls volume ino offset data stable).2.isNtfs = volume.isNtfs := by
  cases volume <;> rfl

theorem writeRun_isFile (server : Server) (fh : Handle) (ino : Nat)
    (script : List (WriteArgs × Calls)) (volume after : Volume) (bytes : List UInt8)
    (decoded : xdrGetFh fh = some ino) (file : IsFile volume ino bytes)
    (ranges : ∀ write ∈ script, write.1.InRange)
    (inside : NeverEmptyPastEnd volume.isNtfs bytes (script.map Prod.fst))
    (ran : writeRun server fh volume script = some after) :
    IsFile after ino (writtenBytes bytes (script.map Prod.fst)) := by
  induction script generalizing volume bytes with
  | nil =>
      cases ran
      exact file
  | cons write rest ih =>
      obtain ⟨args, calls⟩ := write
      have shape := handleProc_write server calls volume fh ino args decoded
      rw [writeRun] at ran
      split at ran
      · rename_i succeeded
        rw [shape] at ran succeeded
        obtain ⟨-, left⟩ := fsWrite_isFile server calls volume ino bytes args
          (ranges _ List.mem_cons_self) file succeeded
        refine ih _ _ (left inside.1) (fun write member => ranges write (List.mem_cons_of_mem _ member))
          ?_ ran
        rw [fsWrite_isNtfs]
        exact inside.2
      · cases ran

/-- A WRITE is exact whatever the library does precisely when it is not an empty write past
the end of an NTFS file; and without such writes the same requests leave the same bytes in
two files that started equal, on any two backends. -/
theorem write_exact_iff (server : Server) (volume : Volume) (fh : Handle) (ino : Nat)
    (bytes : List UInt8) (decoded : xdrGetFh fh = some ino) (file : IsFile volume ino bytes) :
    (∀ args : WriteArgs, args.InRange →
      (WriteExact server volume fh ino bytes args ↔ ¬ EmptyPastEnd volume.isNtfs bytes args)) ∧
    ∀ (other : Volume) (otherFh : Handle) (otherIno : Nat)
      (script otherScript : List (WriteArgs × Calls)) (after otherAfter : Volume),
      xdrGetFh otherFh = some otherIno → IsFile other otherIno bytes →
      otherScript.map Prod.fst = script.map Prod.fst →
      (∀ write ∈ script, write.1.InRange) →
      NeverEmptyPastEnd volume.isNtfs bytes (script.map Prod.fst) →
      NeverEmptyPastEnd other.isNtfs bytes (script.map Prod.fst) →
      writeRun server fh volume script = some after →
      writeRun server otherFh other otherScript = some otherAfter →
      ∃ final, IsFile after ino final ∧ IsFile otherAfter otherIno final := by
  constructor
  · intro args ranges
    constructor
    · intro exactly past
      exact not_writeExact_of_past server volume fh ino bytes args decoded ranges file past exactly
    · exact writeExact_of_inside server volume fh ino bytes args decoded ranges file
  · intro other otherFh otherIno script otherScript after otherAfter otherDecoded otherFile same
      ranges inside otherInside ran otherRan
    have otherRanges : ∀ write ∈ otherScript, write.1.InRange := by
      intro write member
      have listed : write.1 ∈ otherScript.map Prod.fst := List.mem_map_of_mem member
      rw [same, List.mem_map] at listed
      obtain ⟨original, present, equal⟩ := listed
      rw [← equal]
      exact ranges original present
    refine ⟨writtenBytes bytes (script.map Prod.fst), ?_, ?_⟩
    · exact writeRun_isFile server fh ino script volume after bytes decoded file ranges inside ran
    · rw [← same] at otherInside ⊢
      exact writeRun_isFile server otherFh otherIno otherScript other otherAfter bytes otherDecoded
        otherFile otherRanges otherInside otherRan

/-- A fresh NTFS volume with one file of a single byte as record 64. -/
def oneByteMount : NtfsMount where
  volume := NtfsVolume.fresh.setRecord 64
    (some { NtfsRecord.blank false [(fileRoot, [97])] with data := some [7] })
  cache := .empty

theorem oneByteMount_isFile : IsFile (.ntfs oneByteMount) 64 [7] :=
  ⟨_, rfl, rfl, rfl, rfl⟩

/-- The write of nothing at offset ten. -/
def emptyWrite : WriteArgs where
  offset := 10
  count := 0
  stable := .fileSync
  data := []

theorem emptyWrite_inRange : emptyWrite.InRange := ⟨by decide, by decide⟩

theorem emptyWrite_grows :
    IsFile (.ntfs oneByteMount) 64 [7] ∧
      ¬ WriteExact .plain (.ntfs oneByteMount) (xdrPutFh 64) 64 [7] emptyWrite :=
  ⟨oneByteMount_isFile, not_writeExact_of_past .plain _ _ 64 [7] emptyWrite (by decide)
    emptyWrite_inRange oneByteMount_isFile ⟨rfl, rfl, by decide, by decide⟩⟩

theorem write_exact_iff_oneByte :
    WriteExact .plain (.ntfs oneByteMount) (xdrPutFh 64) 64 [7] emptyWrite ↔
      ¬ EmptyPastEnd true [7] emptyWrite :=
  (write_exact_iff .plain (.ntfs oneByteMount) (xdrPutFh 64) 64 [7] (by decide)
    oneByteMount_isFile).1 emptyWrite emptyWrite_inRange

end Rufux.Mountd
