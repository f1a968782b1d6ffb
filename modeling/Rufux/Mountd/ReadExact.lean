import Rufux.Library.Checked
import Rufux.Mountd.ReplySize
import Rufux.Mountd.WriteSemantics

/-!
READ on both backends: the bytes of the file, through whatever pieces the library reads them in,
with every sum and every store into the reply's buffer checked.
-/

namespace Rufux.Mountd

open Rufux.Library Rpc

/-! ### Pieces of a file -/

/-- A read of the library that finds bytes returns some of them. -/
def Calls.ReadsSome (calls : Calls) : Prop :=
  (∀ turn, 0 < calls.ntfs.chunk turn) ∧ ∀ turn, 0 < calls.ext.chunk turn

/-- What a read of the library returns: some of the bytes at a position. -/
def piece (fault : Nat → Option Nfsstat) (chunk : Nat → Nat) (bytes : List UInt8)
    (turn pos want : Nat) : Except Nfsstat (List UInt8) :=
  match fault turn with
  | some status => .error status
  | none => .ok ((bytes.drop pos).take (min (chunk turn) want))

/-- The loops of `ntfs_op_read` and `ext_op_read`. -/
def readPieces (read : Nat → Nat → Nat → Except Nfsstat (List UInt8)) :
    Nat → Nat → Nat → Nat → Except Nfsstat (List UInt8)
  | 0, _, _, _ => .ok []
  | fuel + 1, turn, pos, left =>
      if left = 0 then .ok []
      else
        match read turn pos left with
        | .error status => .error status
        | .ok got =>
            if got = [] then .ok []
            else (readPieces read fuel (turn + 1) (pos + got.length) (left - got.length)).map (got ++ ·)

def extPiece (calls : ExtCalls) (bytes : List UInt8) :
    Nat → Nat → Nat → Except Nfsstat (List UInt8) :=
  piece (fun turn => (calls.fault (.fileRead turn)).map extErrToNfs3) calls.chunk bytes

def ntfsPiece (calls : NtfsCalls) (bytes : List UInt8) :
    Nat → Nat → Nat → Except Nfsstat (List UInt8) :=
  piece (fun turn => (calls.fault (.pread turn)).map errnoToNfs3) calls.chunk bytes

theorem extReadLoop_eq (calls : ExtCalls) (bytes : List UInt8) (fuel turn pos left : Nat) :
    extReadLoop calls bytes fuel turn pos left =
      readPieces (extPiece calls bytes) fuel turn pos left := by
  induction fuel generalizing turn pos left with
  | zero => rfl
  | succ fuel ih =>
    rw [extReadLoop, readPieces]
    cases fault : calls.fault (.fileRead turn) with
    | some code => simp only [extPiece, piece, fault, Option.map_some]
    | none => simp only [extPiece, piece, fault, Option.map_none, ih]

theorem ntfsReadLoop_eq (calls : NtfsCalls) (bytes : List UInt8) (fuel turn pos left : Nat) :
    ntfsReadLoop calls bytes fuel turn pos left =
      readPieces (ntfsPiece calls bytes) fuel turn pos left := by
  induction fuel generalizing turn pos left with
  | zero => rfl
  | succ fuel ih =>
    rw [ntfsReadLoop, readPieces]
    cases fault : calls.fault (.pread turn) with
    | some code => simp only [ntfsPiece, piece, fault, Option.map_some]
    | none => simp only [ntfsPiece, piece, fault, Option.map_none, ih]

section Pieces

variable {fault : Nat → Option Nfsstat} {chunk : Nat → Nat} {bytes got data : List UInt8}
  {read : Nat → Nat → Nat → Except Nfsstat (List UInt8)} {fuel turn pos left : Nat}

theorem of_piece_ok (ran : piece fault chunk bytes turn pos left = .ok got) :
    got = (bytes.drop pos).take (min (chunk turn) left) := by
  unfold piece at ran
  split at ran
  · cases ran
  · cases ran
    rfl

/-- A piece and what is read behind it. -/
theorem take_of_piece (ran : got = (bytes.drop pos).take (min (chunk turn) left))
    (rest : data = (bytes.drop (pos + got.length)).take (left - got.length)) :
    got ++ data = (bytes.drop pos).take left := by
  have short : got.length ≤ min (chunk turn) left := by
    rw [ran]
    exact List.length_take_le _ _
  have front : (bytes.drop pos).take got.length = got := by
    have cut := congrArg (List.take got.length) ran
    rw [List.take_length, List.take_take, Nat.min_eq_left short] at cut
    exact cut.symm
  calc got ++ data
      = (bytes.drop pos).take got.length ++ ((bytes.drop pos).drop got.length).take
          (left - got.length) := by rw [front, rest, List.drop_drop]
    _ = (bytes.drop pos).take (got.length + (left - got.length)) := List.take_add.symm
    _ = (bytes.drop pos).take left := by
        congr 1
        omega

/-- Reads that return something reach the end of what is wanted. -/
theorem readPieces_ok (moves : ∀ turn, 0 < chunk turn) (enough : left ≤ fuel)
    (inside : pos + left ≤ bytes.length)
    (ran : readPieces (piece fault chunk bytes) fuel turn pos left = .ok data) :
    data = (bytes.drop pos).take left := by
  induction fuel generalizing turn pos left data with
  | zero =>
    cases ran
    rw [Nat.le_zero.mp enough, List.take_zero]
  | succ fuel ih =>
    rw [readPieces] at ran
    split at ran
    · rename_i done
      cases ran
      rw [done, List.take_zero]
    · rename_i more
      split at ran
      · cases ran
      · rename_i got read
        have cut := of_piece_ok read
        have positive := moves turn
        have length := congrArg List.length cut
        rw [List.length_take, List.length_drop] at length
        have moved : got ≠ [] := by
          rintro rfl
          rw [List.length_nil] at length
          omega
        rw [if_neg moved] at ran
        cases later : readPieces (piece fault chunk bytes) fuel (turn + 1) (pos + got.length)
            (left - got.length) with
        | error status =>
          rw [later] at ran
          cases ran
        | ok rest =>
          rw [later] at ran
          cases ran
          have bound := List.length_pos_of_ne_nil moved
          exact take_of_piece cut (ih (by omega) (by omega) later)

end Pieces

/-! ### The checked run -/

/-- A store of the library into a buffer that the caller handed in. -/
def storeAt (buf : List UInt8) (start : Nat) (got : List UInt8) : Checked (List UInt8) :=
  if start + got.length ≤ buf.length then
    .ok (buf.take start ++ (got ++ buf.drop (start + got.length)))
  else .error (.outside (start + got.length - 1))

/-- The loop over a buffer: `total` bytes are there, `toRead` are wanted. -/
def readInto (read : Nat → Nat → Nat → Checked (Except Nfsstat (List UInt8))) (toRead : Nat) :
    Nat → Nat → Nat → List UInt8 → Checked (Except Nfsstat (Nat × List UInt8))
  | 0, _, total, buf => pure (.ok (total, buf))
  | fuel + 1, turn, total, buf =>
      if toRead ≤ total then pure (.ok (total, buf))
      else do
        let want ← minus toRead total
        let found ← read turn total want
        match found with
        | .error status => pure (.error status)
        | .ok got =>
            if got = [] then pure (.ok (total, buf))
            else do
              let filled ← storeAt buf total got
              let moved ← fits 32 (total + got.length)
              readInto read toRead fuel (turn + 1) moved filled

/-- `ntfs_attr_pread` at `(s64)(offset + total)`. -/
def ntfsPread (calls : NtfsCalls) (bytes : List UInt8) (offset turn total want : Nat) :
    Checked (Except Nfsstat (List UInt8)) := do
  let pos ← fits 63 (offset + total)
  pure (ntfsPiece calls bytes turn pos want)

/-- `ext2fs_file_read`, which goes on where the last one stopped. -/
def extFileRead (calls : ExtCalls) (bytes : List UInt8) (offset turn total want : Nat) :
    Checked (Except Nfsstat (List UInt8)) :=
  pure (extPiece calls bytes turn (offset + total) want)

/-- What both backends do once they know the size of the file. -/
def readRange (fsize offset count : Nat) (opened : Option Nfsstat)
    (read : Nat → Nat → Nat → Checked (Except Nfsstat (List UInt8)))
    (refuse : Nfsstat → ReadResult) (buf : List UInt8) : Checked ReadResult :=
  if fsize ≤ offset ∨ count = 0 then pure { refuse .ok with eof := decide (fsize ≤ offset) }
  else
    match opened with
    | some status => pure (refuse status)
    | none => do
        let avail ← minus fsize offset
        let toRead := min avail count
        let done ← readInto read toRead toRead 0 0 buf
        match done with
        | .error status => pure (refuse status)
        | .ok (total, filled) => do
            let reached ← size (offset + total)
            pure { refuse .ok with data := filled.take total, eof := decide (fsize ≤ reached) }

section Into

variable {piece : Nat → Nat → Nat → Except Nfsstat (List UInt8)}
  {read : Nat → Nat → Nat → Checked (Except Nfsstat (List UInt8))}
  {fuel turn total toRead offset : Nat} {buf : List UInt8}

/-- What the buffer holds once these bytes are stored at `total`. -/
def filledWith (buf : List UInt8) (total : Nat) (data : List UInt8) : Nat × List UInt8 :=
  (total + data.length, buf.take total ++ (data ++ buf.drop (total + data.length)))

theorem filledWith_nil (buf : List UInt8) (total : Nat) : filledWith buf total [] = (total, buf) := by
  rw [filledWith, List.length_nil, Nat.add_zero, List.nil_append, List.take_append_drop]

theorem filledWith_append {got data : List UInt8} (inside : total + got.length ≤ buf.length) :
    filledWith (filledWith buf total got).2 (total + got.length) data =
      filledWith buf total (got ++ data) := by
  have front : (buf.take total ++ got).length = total + got.length := by
    rw [List.length_append, List.length_take]
    omega
  have whole : (filledWith buf total got).2 =
      (buf.take total ++ got) ++ buf.drop (total + got.length) := by
    rw [filledWith, List.append_assoc]
  rw [whole]
  unfold filledWith
  rw [List.length_append, Nat.add_assoc]
  refine Prod.ext rfl ?_
  dsimp only
  have back : ((buf.take total ++ got) ++ buf.drop (total + got.length)).drop
      (total + got.length + data.length) = buf.drop (total + got.length + data.length) := by
    rw [List.drop_append, List.drop_eq_nil_of_le (by omega), List.nil_append, List.drop_drop, front]
    congr 1
    omega
  rw [← Nat.add_assoc, back, List.take_left' front, List.append_assoc, List.append_assoc]

theorem goes_storeAt {got : List UInt8} (inside : total + got.length ≤ buf.length) :
    Goes (storeAt buf total got) (· = (filledWith buf total got).2) :=
  ⟨_, if_pos inside, rfl⟩

/-- No store leaves the buffer and no sum wraps. -/
theorem readInto_goes (fits : toRead ≤ buf.length) (word : toRead < 2 ^ 32)
    (short : ∀ turn pos want got, piece turn pos want = .ok got → got.length ≤ want)
    (reads : ∀ turn total want, total < toRead →
      Goes (read turn total want) (· = piece turn (offset + total) want)) (within : total ≤ toRead) :
    Goes (readInto read toRead fuel turn total buf)
      (· = (readPieces piece fuel turn (offset + total) (toRead - total)).map
        (filledWith buf total)) := by
  induction fuel generalizing turn total buf with
  | zero => exact goes_pure (congrArg Except.ok (filledWith_nil buf total).symm)
  | succ fuel ih =>
    rw [readInto, readPieces]
    by_cases done : toRead ≤ total
    · rw [if_pos done, if_pos (by omega)]
      exact goes_pure (congrArg Except.ok (filledWith_nil buf total).symm)
    · rw [if_neg done, if_neg (by omega)]
      refine (goes_minus within).bind ?_
      rintro _ rfl
      refine (reads turn total _ (by omega)).bind ?_
      rintro _ rfl
      cases found : piece turn (offset + total) (toRead - total) with
      | error status => exact goes_pure rfl
      | ok got =>
        have bound := short _ _ _ _ found
        dsimp only
        by_cases empty : got = []
        · rw [if_pos empty, if_pos empty]
          exact goes_pure (congrArg Except.ok (filledWith_nil buf total).symm)
        · rw [if_neg empty, if_neg empty]
          refine (goes_storeAt (by omega)).bind ?_
          rintro _ rfl
          refine (goes_fits (by omega)).bind ?_
          rintro _ rfl
          have kept : (filledWith buf total got).2.length = buf.length := by
            simp only [filledWith, List.length_append, List.length_take, List.length_drop]
            omega
          have later := @ih (turn + 1) (total + got.length) (filledWith buf total got).2
            (by omega) (by omega)
          refine later.mono ?_
          rintro _ rfl
          rw [← Nat.add_assoc, Nat.sub_add_eq]
          cases readPieces piece fuel (turn + 1) (offset + total + got.length)
              (toRead - total - got.length) with
          | error status => rfl
          | ok data => exact congrArg Except.ok (filledWith_append (by omega))

theorem readPieces_length {data : List UInt8} {pos left : Nat}
    (short : ∀ turn pos want got, piece turn pos want = .ok got → got.length ≤ want)
    (ran : readPieces piece fuel turn pos left = .ok data) : data.length ≤ left := by
  induction fuel generalizing turn pos left data with
  | zero =>
    cases ran
    exact Nat.zero_le _
  | succ fuel ih =>
    rw [readPieces] at ran
    split at ran
    · cases ran
      exact Nat.zero_le _
    · split at ran
      · cases ran
      · rename_i got found
        have bound := short _ _ _ _ found
        split at ran
        · cases ran
          exact Nat.zero_le _
        · cases later : readPieces piece fuel (turn + 1) (pos + got.length) (left - got.length) with
          | error status =>
            rw [later] at ran
            cases ran
          | ok rest =>
            rw [later] at ran
            cases ran
            have rests := ih later
            rw [List.length_append]
            omega

/-- The result of a read, from what its loop returned. -/
def readResult (fsize offset count : Nat) (opened : Option Nfsstat)
    (pieces : Except Nfsstat (List UInt8)) (refuse : Nfsstat → ReadResult) : ReadResult :=
  if fsize ≤ offset ∨ count = 0 then { refuse .ok with eof := decide (fsize ≤ offset) }
  else
    match opened with
    | some status => refuse status
    | none =>
        match pieces with
        | .error status => refuse status
        | .ok data =>
            { refuse .ok with data := data, eof := decide (fsize ≤ offset + data.length) }

theorem readRange_goes {fsize count : Nat} {opened : Option Nfsstat} {refuse : Nfsstat → ReadResult}
    (fits : count ≤ buf.length) (word : count < 2 ^ 32) (sized : fsize < 2 ^ 64)
    (short : ∀ turn pos want got, piece turn pos want = .ok got → got.length ≤ want)
    (reads : ∀ turn total want, offset + total < fsize →
      Goes (read turn total want) (· = piece turn (offset + total) want)) :
    Goes (readRange fsize offset count opened read refuse buf)
      (· = readResult fsize offset count opened
        (readPieces piece (min (fsize - offset) count) 0 offset (min (fsize - offset) count))
        refuse) := by
  unfold readRange readResult
  by_cases nothing : fsize ≤ offset ∨ count = 0
  · rw [if_pos nothing, if_pos nothing]
    exact goes_pure rfl
  · rw [if_neg nothing, if_neg nothing]
    cases opened with
    | some status => exact goes_pure rfl
    | none =>
      dsimp only
      refine (goes_minus (by omega)).bind ?_
      rintro _ rfl
      have loop := @readInto_goes piece read (min (fsize - offset) count) 0 0
        (min (fsize - offset) count) offset buf (by omega) (by omega) short
        (fun turn total want more => reads turn total want (by omega)) (Nat.zero_le _)
      refine loop.bind ?_
      rintro _ rfl
      rw [Nat.add_zero, Nat.sub_zero]
      cases pieces : readPieces piece (min (fsize - offset) count) 0 offset
          (min (fsize - offset) count) with
      | error status => exact goes_pure rfl
      | ok data =>
        have bound := readPieces_length short pieces
        dsimp only [Except.map, filledWith]
        refine (goes_fits (by omega)).bind ?_
        rintro _ rfl
        refine goes_pure ?_
        rw [List.take_zero, List.nil_append, Nat.zero_add, List.take_left]

end Into

/-- The file's bytes from the offset on, as many as there are of those that the reply has room
for; `eof` tells that nothing follows them. -/
structure ReadExact (bytes : List UInt8) (offset count : Nat) (data : List UInt8) (eof : Bool) :
    Prop where
  range : data = (bytes.take (min (offset + count) bytes.length)).drop offset
  ends : eof = true ↔ bytes.length ≤ offset + data.length

theorem readExact_outside {bytes : List UInt8} {offset count : Nat}
    (nothing : bytes.length ≤ offset ∨ count = 0) :
    ReadExact bytes offset count [] (decide (bytes.length ≤ offset)) := by
  refine ⟨?_, by rw [decide_eq_true_eq, List.length_nil, Nat.add_zero]⟩
  rw [eq_comm, List.drop_eq_nil_iff, List.length_take]
  omega

theorem readPieces_error {fault : Nat → Option Nfsstat} {chunk : Nat → Nat} {bytes : List UInt8}
    {fuel turn pos left : Nat} {status : Nfsstat}
    (fails : ∀ turn status, fault turn = some status → status ≠ .ok)
    (ran : readPieces (piece fault chunk bytes) fuel turn pos left = .error status) :
    status ≠ .ok := by
  induction fuel generalizing turn pos left with
  | zero => cases ran
  | succ fuel ih =>
    rw [readPieces] at ran
    split at ran
    · cases ran
    · split at ran
      · rename_i failed found
        cases ran
        unfold piece at found
        split at found
        · rename_i code failing
          cases found
          exact fails turn status failing
        · cases found
      · split at ran
        · cases ran
        · rename_i got _ _
          cases later : readPieces (piece fault chunk bytes) fuel (turn + 1) (pos + got.length)
              (left - got.length) with
          | error code =>
            rw [later] at ran
            cases ran
            exact ih later
          | ok rest =>
            rw [later] at ran
            cases ran

theorem readResult_exact {fault : Nat → Option Nfsstat} {chunk : Nat → Nat} {bytes : List UInt8}
    {offset count : Nat} {opened : Option Nfsstat} {refuse : Nfsstat → ReadResult}
    (moves : ∀ turn, 0 < chunk turn) (fails : ∀ turn status, fault turn = some status → status ≠ .ok)
    (closed : ∀ status, opened = some status → status ≠ .ok)
    (plain : ∀ status, (refuse status).status = status ∧ (refuse status).data = [])
    (answered : (readResult bytes.length offset count opened
      (readPieces (piece fault chunk bytes) (min (bytes.length - offset) count) 0 offset
        (min (bytes.length - offset) count)) refuse).status = .ok) :
    let result := readResult bytes.length offset count opened
      (readPieces (piece fault chunk bytes) (min (bytes.length - offset) count) 0 offset
        (min (bytes.length - offset) count)) refuse
    ReadExact bytes offset count result.data result.eof := by
  unfold readResult at answered ⊢
  dsimp only at answered ⊢
  by_cases nothing : bytes.length ≤ offset ∨ count = 0
  · rw [if_pos nothing]
    dsimp only
    rw [(plain .ok).2]
    exact readExact_outside nothing
  · rw [if_neg nothing] at answered ⊢
    cases opened with
    | some status => exact absurd ((plain status).1.symm.trans answered) (closed status rfl)
    | none =>
      dsimp only at answered ⊢
      cases pieces : readPieces (piece fault chunk bytes) (min (bytes.length - offset) count) 0
          offset (min (bytes.length - offset) count) with
      | error status =>
        rw [pieces] at answered
        exact absurd ((plain status).1.symm.trans answered) (readPieces_error fails pieces)
      | ok data =>
        have whole := readPieces_ok moves (Nat.le_refl _) (by omega) pieces
        refine ⟨?_, by rw [decide_eq_true_eq]⟩
        dsimp only
        rw [whole, List.drop_take]
        congr 1
        omega

/-! ### The backends -/

section Backends

variable (server : Server) (calls : Calls) (ino offset count : Nat) (buf : List UInt8)

def extRefusal (inode : ExtInode) (status : Nfsstat) : ReadResult where
  status := status
  data := []
  eof := false
  attr := some (extFillAttr server.config ino inode)

def ntfsRefusal (record : NtfsRecord) (status : Nfsstat) : ReadResult where
  status := status
  data := []
  eof := false
  attr := some (ntfsFillAttr server.config (calls.ntfs.fault (.fillAttr .child)) ino record)

/-- The status of a file that the library does not open. -/
def extOpened : Option Nfsstat :=
  ((calls.ext.fault .fileOpen).or (calls.ext.fault .llseek)).map extErrToNfs3

def extOpReadInto (volume : ExtVolume) : Checked ReadResult :=
  match extReadValidInode (calls.ext.fault (.readValid .child)) volume ino with
  | .error status => pure { status := status, data := [], eof := false, attr := none }
  | .ok inode =>
      let refuse := extRefusal server ino inode
      if inode.isDir then pure (refuse .isdir)
      else if ¬ inode.isReg then pure (refuse .inval)
      else
        readRange inode.size offset count (extOpened calls)
          (extFileRead calls.ext (volume.content ino) offset) refuse buf

def ntfsOpReadInto (volume : NtfsVolume) : Checked ReadResult :=
  match ntfsInodeOpen (calls.ntfs.fault (.openInode .child)) volume ino with
  | .error _ => pure { status := .stale, data := [], eof := false, attr := none }
  | .ok record =>
      let refuse := ntfsRefusal server calls ino record
      if record.isDir then pure (refuse .isdir)
      else if record.symlink.isSome then pure (refuse .inval)
      else
        match ntfsAttrOpen (calls.ntfs.fault .openAttr) record with
        | .error code => pure (refuse (errnoToNfs3 code))
        | .ok bytes =>
            readRange bytes.length offset count none (ntfsPread calls.ntfs bytes offset) refuse buf

/-- `fs_read` into a buffer, with its checks. -/
def fsReadInto : Volume → Checked ReadResult
  | .ntfs mount => ntfsOpReadInto server calls ino offset count buf mount.volume
  | .ext volume => extOpReadInto server calls ino offset count buf volume

end Backends

/-- The bits of a file's size: an `s64` on NTFS. -/
def Volume.sizeBits : Volume → Nat
  | .ntfs _ => 63
  | .ext _ => 64

section Files

variable {server : Server} {calls : Calls} {ino offset count : Nat} {bytes buf : List UInt8}

theorem piece_short {fault : Nat → Option Nfsstat} {chunk : Nat → Nat} {got : List UInt8}
    {turn pos want : Nat} (ran : piece fault chunk bytes turn pos want = .ok got) :
    got.length ≤ want := by
  rw [of_piece_ok ran, List.length_take]
  omega

section Ext

variable {volume : ExtVolume} {inode : ExtInode}

theorem isDir_of_isReg (regular : inode.isReg = true) : inode.isDir = false := by
  unfold ExtInode.isReg at regular
  unfold ExtInode.isDir
  rw [of_decide_eq_true regular]
  rfl

theorem extOpRead_file (opens : extReadValidInode (calls.ext.fault (.readValid .child)) volume ino =
      .ok inode) (plain : inode.isDir = false) (regular : inode.isReg = true) :
    extOpRead server.config calls.ext volume ino offset count =
      readResult inode.size offset count (extOpened calls)
        (readPieces (extPiece calls.ext (volume.content ino)) (min (inode.size - offset) count) 0
          offset (min (inode.size - offset) count)) (extRefusal server ino inode) := by
  unfold extOpRead readResult
  rw [opens, ← extReadLoop_eq]
  dsimp only
  rw [plain, if_neg Bool.false_ne_true, if_neg (not_not_intro regular)]
  by_cases nothing : inode.size ≤ offset ∨ count = 0
  · rw [if_pos nothing, if_pos nothing]
    rfl
  · rw [if_neg nothing, if_neg nothing, extOpened]
    cases calls.ext.fault .fileOpen with
    | some code => rfl
    | none =>
      cases calls.ext.fault .llseek with
      | some code => rfl
      | none => rfl

theorem extOpReadInto_goes (fits : count ≤ buf.length) (word : count < 2 ^ 32)
    (file : IsFile (.ext volume) ino bytes) (sized : bytes.length < 2 ^ 64) :
    Goes (extOpReadInto server calls ino offset count buf volume)
      (· = extOpRead server.config calls.ext volume ino offset count) := by
  obtain ⟨inode, valid, regular, size, -⟩ := file
  cases opens : extReadValidInode (calls.ext.fault (.readValid .child)) volume ino with
  | error status =>
    unfold extOpReadInto extOpRead
    rw [opens]
    exact goes_pure rfl
  | ok found =>
    have same : found = inode := by
      rw [(extReadValidInode_ok opens).2.2.2.1, (extReadValidInode_ok valid).2.2.2.1]
    subst same
    have plain := isDir_of_isReg regular
    rw [extOpRead_file opens plain regular]
    unfold extOpReadInto
    rw [opens]
    dsimp only
    rw [plain, if_neg Bool.false_ne_true, if_neg (not_not_intro regular)]
    exact readRange_goes fits word (by omega) (fun _ _ _ _ ran => piece_short ran)
      fun turn total want _ => goes_pure rfl

theorem extOpRead_exact (moves : ∀ turn, 0 < calls.ext.chunk turn)
    (file : IsFile (.ext volume) ino bytes)
    (answered : (extOpRead server.config calls.ext volume ino offset count).status = .ok) :
    ReadExact bytes offset count (extOpRead server.config calls.ext volume ino offset count).data
      (extOpRead server.config calls.ext volume ino offset count).eof := by
  obtain ⟨inode, valid, regular, size, stored⟩ := file
  cases opens : extReadValidInode (calls.ext.fault (.readValid .child)) volume ino with
  | error status =>
    unfold extOpRead at answered
    rw [opens] at answered
    exact absurd answered (extReadValidInode_error_ne_ok opens)
  | ok found =>
    have same : found = inode := by
      rw [(extReadValidInode_ok opens).2.2.2.1, (extReadValidInode_ok valid).2.2.2.1]
    subst same
    rw [extOpRead_file opens (isDir_of_isReg regular) regular, size, stored] at answered ⊢
    refine readResult_exact moves (fun turn status failed => ?_) (fun status failed => ?_)
      (fun status => ⟨rfl, rfl⟩) answered
    · obtain ⟨code, -, rfl⟩ := Option.map_eq_some_iff.mp failed
      exact extErrToNfs3_ne_ok code
    · obtain ⟨code, -, rfl⟩ := Option.map_eq_some_iff.mp failed
      exact extErrToNfs3_ne_ok code

end Ext

section Ntfs

variable {mount : NtfsMount} {record : NtfsRecord}

theorem ntfsOpRead_file
    (opens : ntfsInodeOpen (calls.ntfs.fault (.openInode .child)) mount.volume ino = .ok record)
    (plain : record.isDir = false) (straight : record.symlink = none)
    (attr : ntfsAttrOpen (calls.ntfs.fault .openAttr) record = .ok bytes) :
    ntfsOpRead server.config calls.ntfs mount.volume ino offset count =
      readResult bytes.length offset count none
        (readPieces (ntfsPiece calls.ntfs bytes) (min (bytes.length - offset) count) 0 offset
          (min (bytes.length - offset) count)) (ntfsRefusal server calls ino record) := by
  unfold ntfsOpRead readResult
  rw [opens, ← ntfsReadLoop_eq]
  dsimp only
  rw [plain, straight, attr, if_neg Bool.false_ne_true, Option.isSome_none,
    if_neg Bool.false_ne_true]
  rfl

theorem ntfsOpReadInto_goes (fits : count ≤ buf.length) (word : count < 2 ^ 32)
    (file : IsFile (.ntfs mount) ino bytes) (sized : bytes.length < 2 ^ 63) :
    Goes (ntfsOpReadInto server calls ino offset count buf mount.volume)
      (· = ntfsOpRead server.config calls.ntfs mount.volume ino offset count) := by
  obtain ⟨record, opened, plain, straight, stored⟩ := file
  cases opens : ntfsInodeOpen (calls.ntfs.fault (.openInode .child)) mount.volume ino with
  | error code =>
    unfold ntfsOpReadInto ntfsOpRead
    rw [opens]
    exact goes_pure rfl
  | ok found =>
    have same : found = record := by
      have present := (ntfsInodeOpen_ok opens).2.1
      rw [(ntfsInodeOpen_ok opened).2.1] at present
      exact (Option.some.inj present).symm
    subst same
    cases attr : ntfsAttrOpen (calls.ntfs.fault .openAttr) found with
    | error code =>
      unfold ntfsOpReadInto ntfsOpRead
      rw [opens]
      dsimp only
      rw [plain, straight, attr]
      exact goes_pure rfl
    | ok content =>
      have whole : content = bytes := Option.some.inj ((ntfsAttrOpen_ok attr).symm.trans stored)
      subst whole
      rw [ntfsOpRead_file opens plain straight attr]
      unfold ntfsOpReadInto
      rw [opens]
      dsimp only
      rw [plain, straight, attr, if_neg Bool.false_ne_true, Option.isSome_none,
        if_neg Bool.false_ne_true]
      refine readRange_goes fits word (by omega) (fun _ _ _ _ ran => piece_short ran) ?_
      intro turn total want inside
      refine (goes_fits (by omega)).bind ?_
      rintro _ rfl
      exact goes_pure rfl

theorem ntfsOpRead_exact (moves : ∀ turn, 0 < calls.ntfs.chunk turn)
    (file : IsFile (.ntfs mount) ino bytes)
    (answered : (ntfsOpRead server.config calls.ntfs mount.volume ino offset count).status = .ok) :
    ReadExact bytes offset count
      (ntfsOpRead server.config calls.ntfs mount.volume ino offset count).data
      (ntfsOpRead server.config calls.ntfs mount.volume ino offset count).eof := by
  obtain ⟨record, opened, plain, straight, stored⟩ := file
  cases opens : ntfsInodeOpen (calls.ntfs.fault (.openInode .child)) mount.volume ino with
  | error code =>
    unfold ntfsOpRead at answered
    rw [opens] at answered
    cases answered
  | ok found =>
    have same : found = record := by
      have present := (ntfsInodeOpen_ok opens).2.1
      rw [(ntfsInodeOpen_ok opened).2.1] at present
      exact (Option.some.inj present).symm
    subst same
    cases attr : ntfsAttrOpen (calls.ntfs.fault .openAttr) found with
    | error code =>
      unfold ntfsOpRead at answered
      rw [opens] at answered
      dsimp only at answered
      rw [plain, straight, attr] at answered
      exact absurd answered (errnoToNfs3_ne_ok code)
    | ok content =>
      have whole : content = bytes := Option.some.inj ((ntfsAttrOpen_ok attr).symm.trans stored)
      subst whole
      rw [ntfsOpRead_file opens plain straight attr] at answered ⊢
      refine readResult_exact moves (fun turn status failed => ?_) (by rintro _ ⟨⟩)
        (fun status => ⟨rfl, rfl⟩) answered
      obtain ⟨code, -, rfl⟩ := Option.map_eq_some_iff.mp failed
      exact errnoToNfs3_ne_ok code

end Ntfs

theorem fsReadInto_goes {volume : Volume} (fits : count ≤ buf.length) (word : count < 2 ^ 32)
    (file : IsFile volume ino bytes) (sized : bytes.length < 2 ^ volume.sizeBits) :
    Goes (fsReadInto server calls ino offset count buf volume)
      (· = fsRead server calls volume ino offset count) := by
  cases volume with
  | ntfs mount => exact ntfsOpReadInto_goes fits word file sized
  | ext volume => exact extOpReadInto_goes fits word file sized

theorem fsRead_exact {volume : Volume} (moves : calls.ReadsSome) (file : IsFile volume ino bytes)
    (answered : (fsRead server calls volume ino offset count).status = .ok) :
    ReadExact bytes offset count (fsRead server calls volume ino offset count).data
      (fsRead server calls volume ino offset count).eof := by
  cases volume with
  | ntfs mount => exact ntfsOpRead_exact moves.1 file answered
  | ext volume => exact extOpRead_exact moves.2 file answered

end Files

/-! ### The request and its reply -/

structure ReadArgs where
  fh : Handle
  offset : Nat
  count : Nat
  deriving DecidableEq

def readArgs (reader : XdrReader) : Option ReadArgs :=
  let fh := xdrGetHandle reader
  let offset := xdrGetU64 fh.2
  let count := xdrGetU32 offset.2
  if count.2.err = false then fh.1.map fun fh => ⟨fh, offset.1, count.1⟩ else none

/-- The results of READ; the count is that of the data. -/
def readResults (result : ReadResult) : List UInt8 :=
  wordBytes result.status.code ++ (postOpAttrBytes result.attr ++
    if result.status = .ok then
      wordBytes result.data.length ++ (wordBytes (if result.eof then 1 else 0) ++
        opaqueBytes result.data)
    else [])

theorem emits_readResults (result : ReadResult) :
    Emits (do
      putStatus result.status
      xdrPutPostOpAttr result.attr
      whenOk result.status do
        xdrPutU32 result.data.length
        xdrPutU32 (if result.eof then 1 else 0)
        xdrPutOpaque result.data) (readResults result) := by
  refine (emits_put _).bind ((emits_postOpAttr result.attr).bind ?_)
  unfold whenOk
  split
  · exact (emits_put _).bind ((emits_put _).bind (emits_bytes result.data))
  · intro wire
    rw [List.append_nil]
    rfl

theorem nfsproc3Read_results {wire : Wire} {args : ReadArgs} {ino : Nat}
    (decoded : readArgs wire.reader = some args) (sound : xdrGetFh args.fh = some ino) :
    ∃ left, nfsproc3Read wire =
      .call (.read ino args.offset (min args.count mountdMaxIoSize)) fun result =>
        .done (.ok (), { reader := left, out := wire.out ++ readResults result }) := by
  unfold readArgs at decoded
  dsimp only at decoded
  split at decoded
  · rename_i clean
    obtain ⟨fh, gotFh, rfl⟩ := Option.map_eq_some_iff.mp decoded
    refine ⟨(xdrGetU32 (xdrGetU64 (xdrGetHandle wire.reader).2).2).2, ?_⟩
    unfold nfsproc3Read
    rw [checkedArg_bind gotFh, arg_bind, arg_bind, checkArgs_bind clean, sound]
    dsimp only
    generalize xdrGetU32 _ = count, (xdrGetU64 _).1 = offset
    change CallProg.call _ _ = _
    refine congrArg (CallProg.call _) (funext fun result => ?_)
    exact emits_readResults result _
  · cases decoded

theorem readArgs_count {reader : XdrReader} {args : ReadArgs} (decoded : readArgs reader = some args) :
    args.count < 2 ^ 32 := by
  unfold readArgs at decoded
  dsimp only at decoded
  split at decoded
  · obtain ⟨fh, -, rfl⟩ := Option.map_eq_some_iff.mp decoded
    dsimp only
    unfold xdrGetU32
    split
    · exact Nat.two_pow_pos 32
    · exact wordAt_lt _ _
  · cases decoded

/-- A READ returns the file's bytes from its offset on, whatever pieces the library reads them in;
no sum wraps on the way, and nothing is stored outside the buffer that the handler allocates. -/
theorem read_exact {server : Server} {volume : Volume} {calls : Calls} {wire : Wire}
    {args : ReadArgs} {ino : Nat} {bytes : List UInt8}
    (decoded : readArgs wire.reader = some args) (sound : xdrGetFh args.fh = some ino)
    (file : IsFile volume ino bytes) (sized : bytes.length < 2 ^ volume.sizeBits)
    (moves : calls.ReadsSome) :
    let count := min args.count mountdMaxIoSize
    let result := fsRead server calls volume ino args.offset count
    (∀ buf, buf.length = count →
        fsReadInto server calls ino args.offset count buf volume = .ok result) ∧
      (result.status = .ok →
        ReadExact bytes args.offset count result.data result.eof ∧
          result.data.length ≤ mountdMaxIoSize) ∧
        ∃ left, nfsproc3Read wire = .call (.read ino args.offset count) fun result =>
          .done (.ok (), { reader := left, out := wire.out ++ readResults result }) := by
  have word := readArgs_count decoded
  refine ⟨fun buf room => ?_, fun answered => ?_, nfsproc3Read_results decoded sound⟩
  · exact (fsReadInto_goes (Nat.le_of_eq room.symm) (by omega) file sized).eq
  · have exact := fsRead_exact moves file answered
    refine ⟨exact, ?_⟩
    have length := congrArg List.length exact.range
    rw [List.length_drop, List.length_take] at length
    omega

/-- A READ of file 64 from its start. -/
def shortRead : Wire where
  reader := { rest := opaqueBytes (xdrPutFh 64) ++ u64Bytes 0 ++ wordBytes 16, err := false }
  out := []

theorem read_exact_oneByte :
    let result := fsRead .plain (.quiet 0) (.ntfs oneByteMount) 64 0 16
    (∀ buf, buf.length = 16 →
        fsReadInto .plain (.quiet 0) 64 0 16 buf (.ntfs oneByteMount) = .ok result) ∧
      (result.status = .ok → ReadExact [7] 0 16 result.data result.eof ∧
        result.data.length ≤ mountdMaxIoSize) ∧
        ∃ left, nfsproc3Read shortRead = .call (.read 64 0 16) fun result =>
          .done (.ok (), { reader := left, out := shortRead.out ++ readResults result }) :=
  @read_exact .plain (.ntfs oneByteMount) (.quiet 0) shortRead ⟨xdrPutFh 64, 0, 16⟩ 64 [7]
    (by decide +kernel) (by decide) oneByteMount_isFile (by decide)
    ⟨fun _ => Nat.two_pow_pos 20, fun _ => Nat.two_pow_pos 20⟩

end Rufux.Mountd
