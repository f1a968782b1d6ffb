import Rufux.Mountd.Ext.Volume

/-!
The `ext_op_*` functions of `mountd_nfs.c`. Each takes the libext2fs choices of its
request and the volume, and returns what it stores through its out-parameters together
with the volume it leaves. The entries these functions make in the parent cache are left
out: on this backend nothing reads them.
-/

namespace Rufux.Mountd

def extReadValidInode (fault : Option Errcode) (volume : ExtVolume) (ino : Nat) :
    Except Nfsstat ExtInode :=
  if ino < extRootIno ∨ volume.inodesCount < ino then .error .stale
  else if volume.inodeMap ino = false then .error .stale
  else match ext2fsReadInode fault volume ino with
    | .error code => .error (extErrToNfs3 code)
    | .ok inode => if inode.linksCount = 0 then .error .stale else .ok inode

def extFtype : Format → Ftype3
  | .dir => .dir
  | .lnk => .lnk
  | .blk => .blk
  | .chr => .chr
  | .fifo => .fifo
  | .sock => .sock
  | .reg => .reg
  | .other => .reg

def extFillAttr (config : Config) (ino : Nat) (inode : ExtInode) : NfsAttr where
  type := extFtype inode.format
  mode :=
    if extFtype inode.format = .dir then inode.perm ||| 0o700
    else if extFtype inode.format = .reg then inode.perm ||| 0o600
    else inode.perm
  nlink := if inode.linksCount = 0 then 1 else inode.linksCount
  uid := config.uid
  gid := config.gid
  size :=
    if extFtype inode.format = .dir ∨ extFtype inode.format = .lnk then inode.size % 2 ^ 32
    else inode.size
  used := inode.blocks * 512
  fsid := config.fsid
  fileid := ino
  atimeSec := inode.atime
  atimeNsec := 0
  mtimeSec := inode.mtime
  mtimeNsec := 0
  ctimeSec := inode.ctime
  ctimeNsec := 0

def extOpGetattr (config : Config) (fault : Option Errcode) (volume : ExtVolume) (ino : Nat) :
    Except Nfsstat NfsAttr :=
  match extReadValidInode fault volume ino with
  | .error status => .error status
  | .ok inode => .ok (extFillAttr config ino inode)

/-- The `post_ok` blocks: present exactly when this GETATTR succeeds. -/
def extPostAttr (config : Config) (calls : ExtCalls) (role : Role) (volume : ExtVolume)
    (ino : Nat) : Option NfsAttr :=
  (extOpGetattr config (calls.fault (.readValid role)) volume ino).toOption

def extLinkWithExpand (calls : ExtCalls) (role : Role) (volume : ExtVolume) (dir : Nat)
    (name : Name) (target : Nat) : Option Errcode × ExtVolume :=
  match ext2fsLink calls (.link role) volume dir name target with
  | (none, linked) => (none, linked)
  | (some code, _) =>
      if code = .dirNoSpace ∨ code = .dirNoSpaceForCsum then
        match calls.fault (.expandDir role) with
        | some failed => (some failed, volume)
        | none =>
            ext2fsLink calls (.relink role)
              (volume.growDir dir (calls.newBlocks (.expandDir role))) dir name target
      else (some code, volume)

def extTouchDir (calls : ExtCalls) (role : Role) (volume : ExtVolume) (dir : Nat) : ExtVolume :=
  match ext2fsReadInode (calls.fault (.readInode role)) volume dir with
  | .error _ => volume
  | .ok inode =>
      ext2fsWriteInode (calls.fault (.writeInode role)) volume dir
        { inode with mtime := calls.now, ctime := calls.now }

def applyTime (now old : Nat) : TimeHow → Nat
  | .dontChange => old
  | .serverTime => now
  | .clientTime sec _ => sec

def extApplySattrMeta (now : Nat) (inode : ExtInode) (sattr : SAttr3) : ExtInode :=
  let touched := sattr.mode.isSome ∨ sattr.uid.isSome ∨ sattr.gid.isSome ∨
    sattr.atime ≠ .dontChange ∨ sattr.mtime ≠ .dontChange
  { inode with
    perm := (sattr.mode.map (· % 4096)).getD inode.perm
    uid := sattr.uid.getD inode.uid
    gid := sattr.gid.getD inode.gid
    atime := applyTime now inode.atime sattr.atime
    mtime := applyTime now inode.mtime sattr.mtime
    ctime := if touched then now else inode.ctime }

/-- The last part of `ext_op_setattr`: apply the metadata and write the inode. -/
def extSetattrMeta (config : Config) (calls : ExtCalls) (volume : ExtVolume) (ino : Nat)
    (inode : ExtInode) (sattr : SAttr3) : Except Nfsstat NfsAttr × ExtVolume :=
  let changed := extApplySattrMeta calls.now inode sattr
  match calls.fault (.writeInode .child) with
  | some code => (.error (extErrToNfs3 code), volume)
  | none => (.ok (extFillAttr config ino changed), volume.setInode ino changed)

def extOpSetattr (config : Config) (calls : ExtCalls) (volume : ExtVolume) (ino : Nat)
    (sattr : SAttr3) : Except Nfsstat NfsAttr × ExtVolume :=
  match extReadValidInode (calls.fault (.readValid .child)) volume ino with
  | .error status => (.error status, volume)
  | .ok inode =>
      match sattr.size with
      | none => extSetattrMeta config calls volume ino inode sattr
      | some size =>
          if inode.isDir then (.error .isdir, volume)
          else if ¬ inode.isReg then (.error .inval, volume)
          else match calls.fault .fileOpen with
            | some code => (.error (extErrToNfs3 code), volume)
            | none =>
                match calls.fault .setSize with
                | some code => (.error (extErrToNfs3 code), volume)
                | none =>
                    let sized := ext2fsFileSetSize calls volume ino size
                    match calls.fault .fileClose with
                    | some code => (.error (extErrToNfs3 code), sized)
                    | none =>
                        match ext2fsReadInode (calls.fault (.readInode .child)) sized ino with
                        | .error _ => (.error .io, sized)
                        | .ok fresh =>
                            extSetattrMeta config calls sized ino
                              { fresh with mtime := calls.now, ctime := calls.now } sattr

def extOpLookup (config : Config) (calls : ExtCalls) (volume : ExtVolume) (dir : Nat)
    (name : Name) : Except Nfsstat (Nat × NfsAttr) :=
  if name = [] ∨ slashByte ∈ name then .error .inval
  else match extReadValidInode (calls.fault (.readValid .dir)) volume dir with
    | .error status => .error status
    | .ok din =>
        if ¬ din.isDir then .error .notdir
        else match ext2fsLookup (calls.fault (.lookup .dir)) volume dir name with
          | .error code => .error (extErrToNfs3 code)
          | .ok child =>
              match extReadValidInode (calls.fault (.readValid .child)) volume child with
              | .error status => .error status
              | .ok cin => .ok (child, extFillAttr config child cin)

/-- `PATH_MAX`. -/
def pathMax : Nat := 1024

def extOpReadlink (config : Config) (calls : ExtCalls) (volume : ExtVolume) (ino : Nat) :
    Except Nfsstat Name × Option NfsAttr :=
  match extReadValidInode (calls.fault (.readValid .child)) volume ino with
  | .error status => (.error status, none)
  | .ok inode =>
      let attr := some (extFillAttr config ino inode)
      let size := inode.size % 2 ^ 32
      if ¬ inode.isLnk then (.error .inval, attr)
      else if pathMax ≤ size then (.error .nametoolong, attr)
      else if inode.isFastSymlink then (.ok ((unpackWords inode.iBlock).take (min size 60)), attr)
      else match calls.fault .fileOpen with
        | some code => (.error (extErrToNfs3 code), attr)
        | none =>
            match calls.fault (.fileRead 0) with
            | some code => (.error (extErrToNfs3 code), attr)
            | none => (.ok ((volume.content ino).take (min size (calls.chunk 0))), attr)

/-- The loop of `ext_op_read`: `fuel` bounds the turns, each of which moves at least a byte. -/
def extReadLoop (calls : ExtCalls) (bytes : List UInt8) :
    Nat → Nat → Nat → Nat → Except Nfsstat (List UInt8)
  | 0, _, _, _ => .ok []
  | fuel + 1, turn, pos, left =>
      if left = 0 then .ok []
      else match calls.fault (.fileRead turn) with
        | some code => .error (extErrToNfs3 code)
        | none =>
            let got := (bytes.drop pos).take (min (calls.chunk turn) left)
            if got = [] then .ok []
            else
              (extReadLoop calls bytes fuel (turn + 1) (pos + got.length) (left - got.length)).map
                (got ++ ·)

def extOpRead (config : Config) (calls : ExtCalls) (volume : ExtVolume) (ino offset count : Nat) :
    ReadResult :=
  match extReadValidInode (calls.fault (.readValid .child)) volume ino with
  | .error status => { status := status, data := [], eof := false, attr := none }
  | .ok inode =>
      let refuse (status : Nfsstat) : ReadResult :=
        { status := status, data := [], eof := false, attr := some (extFillAttr config ino inode) }
      if inode.isDir then refuse .isdir
      else if ¬ inode.isReg then refuse .inval
      else if inode.size ≤ offset ∨ count = 0 then
        { refuse .ok with eof := decide (inode.size ≤ offset) }
      else match calls.fault .fileOpen with
        | some code => refuse (extErrToNfs3 code)
        | none =>
            match calls.fault .llseek with
            | some code => refuse (extErrToNfs3 code)
            | none =>
                let wanted := min (inode.size - offset) count
                match extReadLoop calls (volume.content ino) wanted 0 offset wanted with
                | .error status => refuse status
                | .ok data =>
                    { refuse .ok with
                      data := data
                      eof := decide (inode.size ≤ offset + data.length) }

/-- The loop of `ext_op_write`: `some status` is the early return. -/
def extWriteLoop (calls : ExtCalls) (ino : Nat) :
    Nat → Nat → Nat → List UInt8 → ExtVolume → Option Nfsstat × ExtVolume
  | 0, _, _, _, volume => (none, volume)
  | fuel + 1, turn, pos, data, volume =>
      if data = [] then (none, volume)
      else
        let moved := data.take (calls.chunk turn)
        let written := ext2fsFileWrite calls turn volume ino pos moved
        match calls.fault (.fileWrite turn) with
        | some code => (some (extErrToNfs3 code), written)
        | none =>
            if moved = [] then (some .nospc, written)
            else
              extWriteLoop calls ino fuel (turn + 1) (pos + moved.length)
                (data.drop moved.length) written

/-- The end of `ext_op_write` once the file is closed: times, the reply's attributes and
the flush that a stable write asks for. -/
def extFinishWrite (config : Config) (calls : ExtCalls) (volume : ExtVolume) (ino : Nat)
    (stable : StableHow) : Option NfsAttr × ExtVolume :=
  let stamped : Option NfsAttr × ExtVolume :=
    match ext2fsReadInode (calls.fault (.readInode .post)) volume ino with
    | .error _ => (none, volume)
    | .ok inode =>
        let touched := { inode with mtime := calls.now, ctime := calls.now }
        (some (extFillAttr config ino touched),
          ext2fsWriteInode (calls.fault (.writeInode .post)) volume ino touched)
  (stamped.1, if stable = .unstable then stamped.2 else ext2fsFlush (calls.fault .flush) stamped.2)

def extOpWrite (config : Config) (calls : ExtCalls) (volume : ExtVolume) (ino offset : Nat)
    (data : List UInt8) (stable : StableHow) : WriteResult × ExtVolume :=
  match extReadValidInode (calls.fault (.readValid .child)) volume ino with
  | .error status =>
      ({ status := status, written := 0, committed := .fileSync, pre := none, post := none }, volume)
  | .ok inode =>
      let attr := extFillAttr config ino inode
      let refuse (status : Nfsstat) (post : Option NfsAttr) : WriteResult :=
        { status := status, written := 0, committed := .fileSync,
          pre := some (attrToWccPre attr), post := post }
      if inode.isDir then (refuse .isdir (some attr), volume)
      else if ¬ inode.isReg then (refuse .inval (some attr), volume)
      else match calls.fault .fileOpen with
        | some code => (refuse (extErrToNfs3 code) (some attr), volume)
        | none =>
            match calls.fault .llseek with
            | some code => (refuse (extErrToNfs3 code) (some attr), volume)
            | none =>
                match extWriteLoop calls ino data.length 0 offset data volume with
                | (some status, written) =>
                    let post :=
                      match ext2fsReadInode (calls.fault (.readInode .post)) written ino with
                      | .error _ => none
                      | .ok fresh => some (extFillAttr config ino fresh)
                    (refuse status post, written)
                | (none, written) =>
                    match calls.fault .fileFlush with
                    | some code => (refuse (extErrToNfs3 code) none, written)
                    | none =>
                        match calls.fault .fileClose with
                        | some code => (refuse (extErrToNfs3 code) none, written)
                        | none =>
                            let finished := extFinishWrite config calls written ino stable
                            ({ refuse .ok finished.1 with written := data.length }, finished.2)

def extCreateExisting (config : Config) (calls : ExtCalls) (volume : ExtVolume)
    (dir existing : Nat) (pre : WccPre) (sattr : Option SAttr3) : ObjResult × ExtVolume :=
  let applied : Except Nfsstat NfsAttr × ExtVolume :=
    match sattr with
    | some sattr => extOpSetattr config calls.inner volume existing sattr
    | none => (extOpGetattr config (calls.fault (.readValid .child)) volume existing, volume)
  let status := match applied.1 with
    | .error status => status
    | .ok _ => .ok
  ({ status := status, ino := existing, attr := applied.1.toOption, pre := some pre,
     post := extPostAttr config calls .post applied.2 dir }, applied.2)

def newRegInode (config : Config) (now : Nat) (sattr : Option SAttr3) : ExtInode :=
  let nin : ExtInode :=
    { ExtInode.zero with
      format := .reg
      perm := ((sattr.bind SAttr3.mode).map (· % 4096)).getD 0o644
      uid := (sattr.bind SAttr3.uid).getD config.uid
      gid := (sattr.bind SAttr3.gid).getD config.gid
      linksCount := 1
      atime := now, ctime := now, mtime := now }
  match sattr with
  | some sattr => extApplySattrMeta now nin sattr
  | none => nin

/-- The undo path of `ext_op_create`. -/
def extUndoCreate (config : Config) (calls : ExtCalls) (volume : ExtVolume) (dir ino : Nat)
    (nin : ExtInode) (pre : WccPre) (code : Errcode) : ObjResult × ExtVolume :=
  let dropped := (ext2fsWriteInode (calls.fault (.writeInode .child)) volume ino
    { nin with linksCount := 0, dtime := calls.now }).markInode ino false
  ({ status := extErrToNfs3 code, ino := 0, attr := none, pre := some pre,
     post := extPostAttr config calls .post dropped dir }, dropped)

/-- The part of `ext_op_create` that runs once the name was not found. -/
def extCreateNew (config : Config) (calls : ExtCalls) (volume : ExtVolume) (dir : Nat)
    (name : Name) (dirAttr : NfsAttr) (sattr : Option SAttr3) : ObjResult × ExtVolume :=
  match ext2fsNewInode (calls.fault .newInode) calls volume with
  | .error code => (ObjResult.refuse (extErrToNfs3 code) dirAttr, volume)
  | .ok ino =>
      let pre := attrToWccPre dirAttr
      let nin := newRegInode config calls.now sattr
      let marked := volume.markInode ino true
      match calls.fault .writeNewInode with
      | some code => extUndoCreate config calls marked dir ino nin pre code
      | none =>
          let written := (marked.setInode ino nin).setContent ino []
          match extLinkWithExpand calls .dir written dir name ino with
          | (some code, expanded) => extUndoCreate config calls expanded dir ino nin pre code
          | (none, linked) =>
              let touched := extTouchDir calls .dir linked dir
              let sized : Except Nfsstat NfsAttr × ExtVolume :=
                match sattr with
                | some settings =>
                    match settings.size with
                    | some (_ + 1) => extOpSetattr config calls.inner touched ino settings
                    | _ => (extOpGetattr config (calls.fault (.readValid .child)) touched ino,
                        touched)
                | none =>
                    (extOpGetattr config (calls.fault (.readValid .child)) touched ino, touched)
              ({ status := .ok, ino := ino, attr := sized.1.toOption, pre := some pre,
                 post := extPostAttr config calls .post sized.2 dir }, sized.2)

def extOpCreate (config : Config) (calls : ExtCalls) (volume : ExtVolume) (dir : Nat)
    (name : Name) (mode : CreateMode) (sattr : Option SAttr3) : ObjResult × ExtVolume :=
  match extReadValidInode (calls.fault (.readValid .dir)) volume dir with
  | .error status => (ObjResult.early status, volume)
  | .ok din =>
      let dirAttr := extFillAttr config dir din
      if ¬ din.isDir then (ObjResult.refuse .notdir dirAttr, volume)
      else if ¬ validLeafName name then (ObjResult.refuse .inval dirAttr, volume)
      else if 255 < name.length then (ObjResult.refuse .nametoolong dirAttr, volume)
      else match ext2fsLookup (calls.fault (.lookup .dir)) volume dir name with
        | .ok existing =>
            if mode ≠ .unchecked then (ObjResult.refuse .exist dirAttr, volume)
            else extCreateExisting config calls volume dir existing (attrToWccPre dirAttr) sattr
        -- any look-up error, not only a missing name, leads to a new file
        | .error _ => extCreateNew config calls volume dir name dirAttr sattr

/-- `ext2fs_mkdir2`, once more after an expansion when the directory was full. -/
def extMkdirWithExpand (calls : ExtCalls) (volume : ExtVolume) (dir : Nat) (name : Name) :
    Except Errcode Nat × ExtVolume :=
  match ext2fsMkdir2 calls .mkdir volume dir name with
  | .ok made => (.ok made.1, made.2)
  | .error code =>
      if code = .dirNoSpace ∨ code = .dirNoSpaceForCsum then
        match calls.fault (.expandDir .dir) with
        | some _ => (.error code, volume)
        | none =>
            let grown := volume.growDir dir (calls.newBlocks (.expandDir .dir))
            match ext2fsMkdir2 calls .mkdirAgain grown dir name with
            | .ok made => (.ok made.1, made.2)
            | .error again => (.error again, grown)
      else (.error code, volume)

def extDressDir (config : Config) (calls : ExtCalls) (inode : ExtInode) (sattr : Option SAttr3) :
    ExtInode :=
  let nin : ExtInode :=
    { inode with
      format := .dir
      perm := ((sattr.bind SAttr3.mode).map (· % 4096)).getD 0o755
      uid := (sattr.bind SAttr3.uid).getD config.uid
      gid := (sattr.bind SAttr3.gid).getD config.gid
      atime := calls.now, mtime := calls.now, ctime := calls.now }
  match sattr with
  | some sattr => extApplySattrMeta calls.now nin sattr
  | none => nin

def extOpMkdir (config : Config) (calls : ExtCalls) (volume : ExtVolume) (dir : Nat)
    (name : Name) (sattr : Option SAttr3) : ObjResult × ExtVolume :=
  match extReadValidInode (calls.fault (.readValid .dir)) volume dir with
  | .error status => (ObjResult.early status, volume)
  | .ok din =>
      let dirAttr := extFillAttr config dir din
      if ¬ din.isDir then (ObjResult.refuse .notdir dirAttr, volume)
      else if ¬ validLeafName name then (ObjResult.refuse .inval dirAttr, volume)
      else if 255 < name.length then (ObjResult.refuse .nametoolong dirAttr, volume)
      else match ext2fsLookup (calls.fault (.lookup .dir)) volume dir name with
        | .ok _ => (ObjResult.refuse .exist dirAttr, volume)
        | .error _ =>
            match extMkdirWithExpand calls volume dir name with
            | (.error code, left) =>
                ({ ObjResult.refuse (extErrToNfs3 code) dirAttr with
                   post := extPostAttr config calls .post left dir }, left)
            | (.ok ino, made) =>
                let dressed : Option NfsAttr × ExtVolume :=
                  match ext2fsReadInode (calls.fault (.readInode .child)) made ino with
                  | .error _ => (none, made)
                  | .ok inode =>
                      let nin := extDressDir config calls inode sattr
                      (some (extFillAttr config ino nin),
                        ext2fsWriteInode (calls.fault (.writeInode .child)) made ino nin)
                let touched := extTouchDir calls .dir dressed.2 dir
                ({ status := .ok, ino := ino, attr := dressed.1,
                   pre := some (attrToWccPre dirAttr),
                   post := extPostAttr config calls .post touched dir }, touched)

def extSymlinkWithExpand (calls : ExtCalls) (volume : ExtVolume) (dir : Nat)
    (name target : Name) : Option Errcode × ExtVolume :=
  match ext2fsSymlink calls .symlink volume dir name target with
  | .ok made => (none, made)
  | .error code =>
      if code = .dirNoSpace ∨ code = .dirNoSpaceForCsum then
        match calls.fault (.expandDir .dir) with
        | some _ => (some code, volume)
        | none =>
            let grown := volume.growDir dir (calls.newBlocks (.expandDir .dir))
            match ext2fsSymlink calls .symlinkAgain grown dir name target with
            | .ok made => (none, made)
            | .error again => (some again, grown)
      else (some code, volume)

def extDressSymlink (config : Config) (calls : ExtCalls) (inode : ExtInode)
    (sattr : Option SAttr3) : ExtInode :=
  let lin : ExtInode :=
    { inode with
      uid := config.uid, gid := config.gid
      atime := calls.now, mtime := calls.now, ctime := calls.now }
  match sattr with
  | some sattr => extApplySattrMeta calls.now lin sattr
  | none => lin

def extOpSymlink (config : Config) (calls : ExtCalls) (volume : ExtVolume) (dir : Nat)
    (name : Name) (sattr : Option SAttr3) (target : Name) : ObjResult × ExtVolume :=
  if target = [] then (ObjResult.early .inval, volume)
  else match extReadValidInode (calls.fault (.readValid .dir)) volume dir with
  | .error status => (ObjResult.early status, volume)
  | .ok din =>
      let dirAttr := extFillAttr config dir din
      if ¬ din.isDir then (ObjResult.refuse .notdir dirAttr, volume)
      else if ¬ validLeafName name then (ObjResult.refuse .inval dirAttr, volume)
      else if 255 < name.length ∨ pathMax ≤ target.length then
        (ObjResult.refuse .nametoolong dirAttr, volume)
      else match ext2fsLookup (calls.fault (.lookup .dir)) volume dir name with
        | .ok _ => (ObjResult.refuse .exist dirAttr, volume)
        | .error _ =>
            match extSymlinkWithExpand calls volume dir name target with
            | (some code, left) =>
                ({ ObjResult.refuse (extErrToNfs3 code) dirAttr with
                   post := extPostAttr config calls .post left dir }, left)
            | (none, made) =>
                match ext2fsLookup (calls.fault (.lookup .child)) made dir name with
                | .error code =>
                    ({ ObjResult.refuse (extErrToNfs3 code) dirAttr with
                       post := extPostAttr config calls .post made dir }, made)
                | .ok ino =>
                    let dressed : Option NfsAttr × ExtVolume :=
                      match ext2fsReadInode (calls.fault (.readInode .child)) made ino with
                      | .error _ => (none, made)
                      | .ok inode =>
                          let lin := extDressSymlink config calls inode sattr
                          (some (extFillAttr config ino lin),
                            ext2fsWriteInode (calls.fault (.writeInode .child)) made ino lin)
                    let touched := extTouchDir calls .dir dressed.2 dir
                    ({ status := .ok, ino := ino, attr := dressed.1,
                       pre := some (attrToWccPre dirAttr),
                       post := extPostAttr config calls .post touched dir }, touched)

/-- The inode that REMOVE and RMDIR leave behind when they release one. -/
def releasedInode (now : Nat) (inode : ExtInode) : ExtInode :=
  { inode with linksCount := 0, size := 0, dtime := now, ctime := now }

/-- What `ext_op_remove` does to the inode once its entry is gone: one link less, or its
blocks, its size and its number given up with the last link. -/
def extDropLink (calls : ExtCalls) (volume : ExtVolume) (ino : Nat) (inode : ExtInode) :
    ExtVolume :=
  if 1 < inode.linksCount then
    ext2fsWriteInode (calls.fault (.writeInode .child)) volume ino
      { decLinks inode with ctime := calls.now }
  else
    let emptied : ExtInode × ExtVolume :=
      if ¬ inode.isLnk ∨ ¬ inode.isFastSymlink then
        ext2fsPunch (calls.fault .punch) volume ino inode
      else ({ inode with iBlock := [] }, volume)
    (ext2fsWriteInode (calls.fault (.writeInode .child)) emptied.2 ino
      (releasedInode calls.now emptied.1)).markInode ino false

def extOpRemove (config : Config) (calls : ExtCalls) (volume : ExtVolume) (dir : Nat)
    (name : Name) : DirResult × ExtVolume :=
  match extReadValidInode (calls.fault (.readValid .dir)) volume dir with
  | .error status => (DirResult.early status, volume)
  | .ok din =>
      let dirAttr := extFillAttr config dir din
      if ¬ din.isDir then (DirResult.refuse .notdir dirAttr, volume)
      else if ¬ validLeafName name then (DirResult.refuse .inval dirAttr, volume)
      else match ext2fsLookup (calls.fault (.lookup .dir)) volume dir name with
        | .error code => (DirResult.refuse (extErrToNfs3 code) dirAttr, volume)
        | .ok ino =>
            match extReadValidInode (calls.fault (.readValid .child)) volume ino with
            | .error status => (DirResult.refuse status dirAttr, volume)
            | .ok cin =>
                if cin.isDir then (DirResult.refuse .isdir dirAttr, volume)
                else match ext2fsUnlink (calls.fault (.unlink .dir)) volume dir name ino with
                  | (some code, _) => (DirResult.refuse (extErrToNfs3 code) dirAttr, volume)
                  | (none, unlinked) =>
                      let touched := extTouchDir calls .dir (extDropLink calls unlinked ino cin) dir
                      ({ status := .ok, pre := some (attrToWccPre dirAttr),
                         post := extPostAttr config calls .post touched dir }, touched)

/-- What `ext_op_rmdir` does once the entry is gone: release the directory's inode and
take one link from its parent. -/
def extReleaseDir (calls : ExtCalls) (volume : ExtVolume) (dir ino : Nat) (inode : ExtInode) :
    ExtVolume :=
  let emptied := ext2fsPunch (calls.fault .punch) volume ino inode
  let released := (ext2fsWriteInode (calls.fault (.writeInode .child)) emptied.2 ino
    (releasedInode calls.now emptied.1)).markInode ino false
  match ext2fsReadInode (calls.fault (.readInode .dir)) released dir with
  | .error _ => released
  | .ok din =>
      let counted := if 2 < din.linksCount then decLinks din else din
      ext2fsWriteInode (calls.fault (.writeInode .dir)) released dir
        { counted with mtime := calls.now, ctime := calls.now }

def extOpRmdir (config : Config) (calls : ExtCalls) (volume : ExtVolume) (dir : Nat)
    (name : Name) : DirResult × ExtVolume :=
  match extReadValidInode (calls.fault (.readValid .dir)) volume dir with
  | .error status => (DirResult.early status, volume)
  | .ok din =>
      let dirAttr := extFillAttr config dir din
      if ¬ din.isDir then (DirResult.refuse .notdir dirAttr, volume)
      else if ¬ validLeafName name then (DirResult.refuse .inval dirAttr, volume)
      else match ext2fsLookup (calls.fault (.lookup .dir)) volume dir name with
        | .error code => (DirResult.refuse (extErrToNfs3 code) dirAttr, volume)
        | .ok ino =>
            if ino = extRootIno then (DirResult.refuse .acces dirAttr, volume)
            else match extReadValidInode (calls.fault (.readValid .child)) volume ino with
            | .error status => (DirResult.refuse status dirAttr, volume)
            | .ok cin =>
                if ¬ cin.isDir then (DirResult.refuse .notdir dirAttr, volume)
                else match calls.fault (.iterate .child) with
                | some code => (DirResult.refuse (extErrToNfs3 code) dirAttr, volume)
                | none =>
                    if volume.entries ino ≠ [] then (DirResult.refuse .notempty dirAttr, volume)
                    else match ext2fsUnlink (calls.fault (.unlink .dir)) volume dir name ino with
                      | (some code, _) => (DirResult.refuse (extErrToNfs3 code) dirAttr, volume)
                      | (none, unlinked) =>
                          let left := extReleaseDir calls unlinked dir ino cin
                          ({ status := .ok, pre := some (attrToWccPre dirAttr),
                             post := extPostAttr config calls .post left dir }, left)

/-- The link counts of the two parents when a directory moves from one to the other. -/
def extMoveDirCounts (calls : ExtCalls) (volume : ExtVolume) (fromDir toDir : Nat) : ExtVolume :=
  let left :=
    match ext2fsReadInode (calls.fault (.readInode .fromDir)) volume fromDir with
    | .error _ => volume
    | .ok fdin =>
        ext2fsWriteInode (calls.fault (.writeInode .fromDir)) volume fromDir
          (if 2 < fdin.linksCount then decLinks fdin else fdin)
  match ext2fsReadInode (calls.fault (.readInode .toDir)) left toDir with
  | .error _ => left
  | .ok tdin =>
      ext2fsWriteInode (calls.fault (.writeInode .toDir)) left toDir
        (if 2 ≤ tdin.linksCount ∧ tdin.linksCount < 65000 then incLinks tdin else tdin)

/-- The rewriting of `..` and of the counts, for a directory that gets a new parent. -/
def extReparent (calls : ExtCalls) (volume : ExtVolume) (fromDir toDir ino : Nat)
    (inode : ExtInode) : ExtVolume :=
  if inode.isDir ∧ fromDir ≠ toDir then
    let pointed :=
      match calls.fault (.iterate .source) with
      | some _ => volume
      | none => volume.setDotdot ino toDir
    extMoveDirCounts calls pointed fromDir toDir
  else volume

/-- The part of `ext_op_rename` that moves the entry, the target name being free. -/
def extMoveEntry (config : Config) (calls : ExtCalls) (volume : ExtVolume)
    (fromDir : Nat) (fromName : Name) (toDir : Nat) (toName : Name) (ino : Nat)
    (inode : ExtInode) (fromPre toPre : WccPre) : RenameResult × ExtVolume :=
  let answer (status : Nfsstat) (left : ExtVolume) : RenameResult × ExtVolume :=
    ({ status := status, fromPre := some fromPre, toPre := some toPre
       fromPost := extPostAttr config calls .fromPost left fromDir
       toPost := extPostAttr config calls .toPost left toDir }, left)
  match extLinkWithExpand calls .target volume toDir toName ino with
  | (some code, left) => answer (extErrToNfs3 code) left
  | (none, linked) =>
      match ext2fsUnlink (calls.fault (.unlink .source)) linked fromDir fromName ino with
      | (some code, left) => answer (extErrToNfs3 code) left
      | (none, unlinked) =>
          let moved := extReparent calls unlinked fromDir toDir ino inode
          let touchedFrom := extTouchDir calls .touchFrom moved fromDir
          answer .ok
            (if toDir ≠ fromDir then extTouchDir calls .touchTo touchedFrom toDir else touchedFrom)

/-- The removal of the object that RENAME replaces. -/
def extRemoveTarget (config : Config) (calls : ExtCalls) (volume : ExtVolume) (toDir : Nat)
    (toName : Name) (toIsDir : Bool) : DirResult × ExtVolume :=
  if toIsDir then extOpRmdir config calls.inner volume toDir toName
  else extOpRemove config calls.inner volume toDir toName

def extOpRename (config : Config) (calls : ExtCalls) (volume : ExtVolume)
    (fromDir : Nat) (fromName : Name) (toDir : Nat) (toName : Name) : RenameResult × ExtVolume :=
  let fromAttr := extOpGetattr config (calls.fault (.readValid .fromDir)) volume fromDir
  let toAttr := extOpGetattr config (calls.fault (.readValid .toDir)) volume toDir
  match fromAttr, toAttr with
  | .ok fpre, .ok tpre =>
      let silent (status : Nfsstat) : RenameResult :=
        { RenameResult.refuse status fpre tpre with fromPost := none, toPost := none }
      if fpre.type ≠ .dir ∨ tpre.type ≠ .dir then (RenameResult.refuse .notdir fpre tpre, volume)
      else if ¬ validLeafName fromName ∨ ¬ validLeafName toName then
        (RenameResult.refuse .inval fpre tpre, volume)
      else if 255 < fromName.length ∨ 255 < toName.length then
        (RenameResult.refuse .nametoolong fpre tpre, volume)
      else match ext2fsLookup (calls.fault (.lookup .source)) volume fromDir fromName with
        | .error code => (RenameResult.refuse (extErrToNfs3 code) fpre tpre, volume)
        | .ok ino =>
            match extReadValidInode (calls.fault (.readValid .source)) volume ino with
            | .error status => (silent status, volume)
            | .ok fin =>
                let move (left : ExtVolume) : RenameResult × ExtVolume :=
                  extMoveEntry config calls left fromDir fromName toDir toName ino fin
                    (attrToWccPre fpre) (attrToWccPre tpre)
                match ext2fsLookup (calls.fault (.lookup .target)) volume toDir toName with
                | .error code =>
                    if code ≠ .fileNotFound then
                      (RenameResult.refuse (extErrToNfs3 code) fpre tpre, volume)
                    else move volume
                | .ok replaced =>
                    if replaced = ino then (RenameResult.refuse .ok fpre tpre, volume)
                    else match extReadValidInode (calls.fault (.readValid .target)) volume replaced with
                      | .error status => (silent status, volume)
                      | .ok tin =>
                          if fin.isDir ∧ ¬ tin.isDir then
                            (RenameResult.refuse .notdir fpre tpre, volume)
                          else if ¬ fin.isDir ∧ tin.isDir then
                            (RenameResult.refuse .isdir fpre tpre, volume)
                          else match extRemoveTarget config calls volume toDir toName tin.isDir with
                            | (removed, left) =>
                                if removed.status ≠ .ok then
                                  ({ RenameResult.refuse removed.status fpre tpre with
                                     fromPost := extPostAttr config calls .fromPost left fromDir
                                     toPost := extPostAttr config calls .toPost left toDir }, left)
                                else move left
  | _, _ =>
      ({ status := .stale, fromPre := fromAttr.toOption.map attrToWccPre, fromPost := none,
         toPre := toAttr.toOption.map attrToWccPre, toPost := none }, volume)

def extOpLink (config : Config) (calls : ExtCalls) (volume : ExtVolume) (ino dir : Nat)
    (name : Name) : LinkResult × ExtVolume :=
  match extReadValidInode (calls.fault (.readValid .dir)) volume dir with
  | .error status => ({ status := status, attr := none, pre := none, post := none }, volume)
  | .ok din =>
      let dirAttr := extFillAttr config dir din
      let pre := some (attrToWccPre dirAttr)
      match extReadValidInode (calls.fault (.readValid .child)) volume ino with
      | .error status => ({ status := status, attr := none, pre := pre, post := none }, volume)
      | .ok fin =>
          let refuse (status : Nfsstat) : LinkResult :=
            { status := status, attr := some (extFillAttr config ino fin), pre := pre,
              post := some dirAttr }
          if ¬ din.isDir then (refuse .notdir, volume)
          else if fin.isDir then (refuse .isdir, volume)
          else if ¬ validLeafName name then (refuse .inval, volume)
          else if 255 < name.length then (refuse .nametoolong, volume)
          else match ext2fsLookup (calls.fault (.lookup .dir)) volume dir name with
            | .ok _ => (refuse .exist, volume)
            | .error _ =>
                match extLinkWithExpand calls .dir volume dir name ino with
                | (some code, left) =>
                    ({ refuse (extErrToNfs3 code) with
                       post := extPostAttr config calls .post left dir }, left)
                | (none, linked) =>
                    let counted := { incLinks fin with ctime := calls.now }
                    let touched := extTouchDir calls .dir
                      (ext2fsWriteInode (calls.fault (.writeInode .child)) linked ino counted) dir
                    ({ status := .ok, attr := some (extFillAttr config ino counted), pre := pre,
                       post := extPostAttr config calls .post touched dir }, touched)

def extOpReaddir (config : Config) (calls : ExtCalls) (volume : ExtVolume) (dir : Nat) :
    Except Nfsstat (List DirEntryItem) × Option NfsAttr :=
  match extReadValidInode (calls.fault (.readValid .dir)) volume dir with
  | .error status => (.error status, none)
  | .ok din =>
      let attr := some (extFillAttr config dir din)
      if ¬ din.isDir then (.error .notdir, attr)
      else match calls.fault (.iterate .dir) with
        | some code => (.error (extErrToNfs3 code), attr)
        | none =>
            -- the callback that meets `..` has the last word on its number
            let listed := (volume.entries dir).map fun entry =>
              ({ fileid := entry.ino, name := entry.name } : DirEntryItem)
            (.ok (⟨dir, dotName⟩ :: ⟨volume.dotdot dir, dotdotName⟩ :: listed), attr)

def extOpFsstat (config : Config) (calls : ExtCalls) (volume : ExtVolume) (ino : Nat) :
    Except Nfsstat FsStatInfo × Option NfsAttr :=
  match extOpGetattr config (calls.fault (.readValid .child)) volume ino with
  | .error _ => (.error .stale, none)
  | .ok attr =>
      let freeBlocks := (List.range volume.blocksCount).countP fun block => !volume.blockMap block
      let freeInodes := (List.range volume.inodesCount).countP fun i => !volume.inodeMap (i + 1)
      (.ok { tbytes := volume.blocksCount * volume.blockSize
             fbytes := freeBlocks * volume.blockSize
             abytes := freeBlocks * volume.blockSize
             tfiles := volume.inodesCount
             ffiles := freeInodes
             afiles := freeInodes }, some attr)

def extOpCommit (config : Config) (calls : ExtCalls) (volume : ExtVolume) (ino : Nat) :
    DirResult × ExtVolume :=
  match extOpGetattr config (calls.fault (.readValid .child)) volume ino with
  | .error _ => (DirResult.early .stale, volume)
  | .ok attr =>
      match calls.fault .writeBitmaps with
      | some code => (DirResult.refuse (extErrToNfs3 code) attr, volume)
      | none =>
          match calls.fault .flush with
          | some code => (DirResult.refuse (extErrToNfs3 code) attr, volume)
          | none =>
              let flushed := ext2fsFlush none volume
              match calls.fault .ioFlush with
              | some code => (DirResult.refuse (extErrToNfs3 code) attr, flushed)
              | none => (DirResult.refuse .ok attr, flushed)

/-- The ext half of `fs_sync_all`. -/
def extSyncAll (calls : ExtCalls) (volume : ExtVolume) : ExtVolume :=
  ext2fsFlush (calls.fault .flush) volume

end Rufux.Mountd
