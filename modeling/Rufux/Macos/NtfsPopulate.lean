import Mathlib

/-!
Copying a host directory onto an NTFS volume through libntfs-3g. The library is a parameter: what
its calls return and what they leave on the volume, which is seen as records with names in them.
A C string is kept without its terminator.
-/

namespace Rufux.Macos.Populate

/-! ### libntfs-3g -/

/-- A component of a path on the volume, in UTF-16. -/
abbrev NtfsName := List UInt16

inductive NtfsKind where
  | directory
  | regular
  | reparse
deriving DecidableEq

inductive Lookup (Ref : Type) where
  | found (ref : Ref)
  | absent
  | failed

/-- The calls that are made, and what there is on a volume: the records in use, the names in a
directory, and the kind and the unnamed data of a record. -/
structure Ntfs3g (W Ref : Type) where
  root : Ref
  used : W → Ref → Prop
  entry : W → Ref → NtfsName → Option Ref
  kind : W → Ref → NtfsKind
  data : W → Ref → List UInt8
  mbstoucs : List UInt8 → Option NtfsName
  lookup : W → Ref → NtfsName → W × Lookup Ref
  inodeOpen : W → Ref → W × Bool
  create : W → Ref → NtfsName → NtfsKind → W × Option Ref
  createSymlink : W → Ref → NtfsName → NtfsName → W × Option Ref
  attrOpen : W → Ref → W × Bool
  truncate : W → Ref → W × Bool
  pwrite : W → Ref → Nat → List UInt8 → W × Nat
  attrPclose : W → Ref → W × Bool
  inodeCloseInDir : W → Ref → Ref → W × Bool
  inodeClose : W → Ref → W × Bool
  setIgnoreCase : W → W × Bool
  umount : W → W × Bool
  /-- The program `ntfsfix -d`, once the volume is unmounted. -/
  ntfsfix : W → W × Bool

/-! ### The host -/

/-- A name in a host directory. -/
structure HostName where
  bytes : List UInt8
  nonempty : bytes ≠ []
  nulFree : (0 : UInt8) ∉ bytes
  single : (47 : UInt8) ∉ bytes
  notSelf : bytes ≠ [46]
  notParent : bytes ≠ [46, 46]

abbrev HostPath := List HostName

inductive HostKind where
  | directory
  | regular
  | symlink
  | other
deriving DecidableEq

/-- What `readdir` returns at one call. -/
inductive DirEntry where
  | self
  | parent
  | child (name : HostName)

def DirEntry.dName : DirEntry → List UInt8
  | .self => [46]
  | .parent => [46, 46]
  | .child name => name.bytes

def DirEntry.child? : DirEntry → Option HostName
  | .child name => some name
  | _ => none

/-- The two passes over the source. -/
inductive Pass where
  | prescan
  | copy

/-- What one `read` meets. -/
inductive ReadTurn where
  | interrupted
  | failed
  | moved (count : Nat)

/-- The source directory, by paths relative to it: what it holds, and what the system calls
return. `readdir` returns names of the directory in some order, all of them unless an error ends
it. A `read` that is not listed fills the buffer. -/
structure Host where
  source : List UInt8
  isDir : Bool
  kids : HostPath → List HostName
  kind : HostPath → HostKind
  content : HostPath → List UInt8
  opendir : Pass → HostPath → Bool
  readdir : Pass → HostPath → List DirEntry
  lstat : Pass → HostPath → Bool
  opens : HostPath → Bool
  reads : HostPath → List ReadTurn
  readlink : HostPath → Option (List UInt8)
  once : ∀ pass path, ((readdir pass path).filterMap DirEntry.child?).Nodup
  held : ∀ pass path, ∀ name ∈ (readdir pass path).filterMap DirEntry.child?, name ∈ kids path

namespace Host

variable (host : Host)

/-- How long the path is, from the source directory on. -/
def pathLength (path : HostPath) : Nat :=
  host.source.length + (path.map fun name => name.bytes.length + 1).sum

/-- `PATH_MAX` -/
def pathMax : Nat := 1024

def strcmpLe (first second : HostName) : Bool := decide (first.bytes ≤ second.bytes)

/-- A name that `readdir` returned, but for `.` and `..`. -/
def keptEntry (entry : DirEntry) : Option HostName :=
  if entry.dName = [46] ∨ entry.dName = [46, 46] then none else entry.child?

/-- `readdir` returns no entry at the end and after an error alike. -/
def listSortedDirEntries (pass : Pass) (path : HostPath) : Option (List HostName) :=
  if !host.opendir pass path then none
  else some (((host.readdir pass path).filterMap keptEntry).mergeSort strcmpLe)

theorem pathLength_child (path : HostPath) (name : HostName) :
    host.pathLength path < host.pathLength (path ++ [name]) := by
  unfold pathLength
  simp

/-- The pass that adds up the bytes; its sum only goes to the progress callback. -/
def prescanDirBytes (path : HostPath) : Bool :=
  match host.listSortedDirEntries .prescan path with
  | none => false
  | some names =>
    names.all fun name =>
      if _fits : pathMax ≤ host.pathLength (path ++ [name]) then false
      else if !host.lstat .prescan (path ++ [name]) then false
      else if host.kind (path ++ [name]) = .directory then prescanDirBytes (path ++ [name])
      else true
termination_by pathMax - host.pathLength path
decreasing_by
  have longer := host.pathLength_child path name
  omega

end Host

/-! ### One entry -/

namespace Ntfs3g

variable {W Ref : Type} (lib : Ntfs3g W Ref) (host : Host)

/-- A name as a component of a path on the volume. -/
def utf8ToNtfsComponent (name : List UInt8) : Option NtfsName :=
  if name = [] ∨ name = [46] ∨ name = [46, 46] ∨ 47 ∈ name then none
  else
    match lib.mbstoucs name with
    | none => none
    | some text => if text.length = 0 then none else if 255 < text.length then none else some text

def ensureNtfsChildDir (w : W) (parent : Ref) (name : HostName) : W × Option Ref :=
  match lib.utf8ToNtfsComponent name.bytes with
  | none => (w, none)
  | some uname =>
    match lib.lookup w parent uname with
    | (w, .found mref) =>
      match lib.inodeOpen w mref with
      | (w, false) => (w, none)
      | (w, true) =>
        if lib.kind w mref ≠ .directory then ((lib.inodeCloseInDir w mref parent).1, none)
        else (w, some mref)
    | (w, .failed) => (w, none)
    | (w, .absent) => lib.create w parent uname .directory

/-- Writing one chunk until all of it is written. A write of nothing fails. -/
def writeChunk (w : W) (ni : Ref) (pos : Nat) (bytes : List UInt8) : W × Bool :=
  if bytes = [] then (w, true)
  else
    match lib.pwrite w ni pos bytes with
    | (w, 0) => (w, false)
    | (w, count + 1) => writeChunk w ni (pos + (count + 1)) (bytes.drop (count + 1))
termination_by bytes.length
decreasing_by
  rename_i some_bytes
  have size : bytes.length ≠ 0 := by simpa using some_bytes
  rw [List.length_drop]
  omega

def streamChunkBytes : Nat := 1024 * 1024

/-- Reading the rest of the host file and writing it behind what is written. -/
def copyData (w : W) (ni : Ref) (pos : Nat) (turns : List ReadTurn) (rest : List UInt8) : W × Bool :=
  match turns with
  | .interrupted :: turns => copyData w ni pos turns rest
  | .failed :: _ => (w, false)
  | .moved count :: turns =>
    if rest = [] then (w, true)
    else
      let chunk := rest.take (max 1 (min count streamChunkBytes))
      match lib.writeChunk w ni pos chunk with
      | (w, false) => (w, false)
      | (w, true) => copyData w ni (pos + chunk.length) turns (rest.drop chunk.length)
  | [] =>
    if _some : rest = [] then (w, true)
    else
      let chunk := rest.take streamChunkBytes
      match lib.writeChunk w ni pos chunk with
      | (w, false) => (w, false)
      | (w, true) => copyData w ni (pos + chunk.length) [] (rest.drop chunk.length)
termination_by turns.length + rest.length
decreasing_by
  · simp
  · simp only [List.length_cons, List.length_drop]
    omega
  · have size : rest.length ≠ 0 := by simpa using _some
    simp only [List.length_drop, List.length_take, streamChunkBytes]
    omega

/-- The record that a file goes to, which is made unless the name is there. -/
def openOrCreateFile (w : W) (dir : Ref) (uname : NtfsName) : W × Option Ref :=
  match lib.lookup w dir uname with
  | (w, .found mref) =>
    match lib.inodeOpen w mref with
    | (w, false) => (w, none)
    | (w, true) =>
      if lib.kind w mref ≠ .regular then ((lib.inodeCloseInDir w mref dir).1, none)
      else (w, some mref)
  | (w, .failed) => (w, none)
  | (w, .absent) => lib.create w dir uname .regular

def writeRegularFileIntoDir (w : W) (dir : Ref) (path : HostPath) (name : HostName) : W × Bool :=
  match lib.utf8ToNtfsComponent name.bytes with
  | none => (w, false)
  | some uname =>
    if !host.opens (path ++ [name]) then (w, false)
    else
      match lib.openOrCreateFile w dir uname with
      | (w, none) => (w, false)
      | (w, some ni) =>
        match lib.attrOpen w ni with
        | (w, false) => ((lib.inodeCloseInDir w ni dir).1, false)
        | (w, true) =>
          match if (lib.data w ni).length ≠ 0 then lib.truncate w ni else (w, true) with
          | (w, false) => ((lib.inodeCloseInDir w ni dir).1, false)
          | (w, true) =>
            match lib.copyData w ni 0 (host.reads (path ++ [name])) (host.content (path ++ [name])) with
            | (w, false) => ((lib.inodeCloseInDir w ni dir).1, false)
            | (w, true) =>
              match lib.attrPclose w ni with
              | (w, false) => ((lib.inodeCloseInDir w ni dir).1, false)
              | (w, true) => lib.inodeCloseInDir w ni dir

def writeSymlinkIntoDir (w : W) (dir : Ref) (path : HostPath) (name : HostName) : W × Bool :=
  match host.readlink (path ++ [name]) with
  | none => (w, false)
  | some target =>
    match lib.utf8ToNtfsComponent name.bytes with
    | none => (w, false)
    | some uname =>
      match lib.lookup w dir uname with
      | (w, .found _) => (w, true)
      | (w, .failed) => (w, false)
      | (w, .absent) =>
        match lib.mbstoucs (target.take (Host.pathMax - 1)) with
        | none => (w, false)
        | some utarget =>
          match lib.createSymlink w dir uname utarget with
          | (w, none) => (w, false)
          | (w, some lni) => lib.inodeCloseInDir w lni dir

/-! ### The tree -/

/-- The entries of a directory one after the other; `below` copies a directory in it. -/
def copyEntries (path : HostPath)
    (below : (name : HostName) → host.pathLength (path ++ [name]) < Host.pathMax → W → Ref → W × Bool)
    (dir : Ref) : List HostName → W → W × Bool
  | [], w => (w, true)
  | name :: rest, w =>
    if fits : host.pathLength (path ++ [name]) < Host.pathMax then
      if !host.lstat .copy (path ++ [name]) then (w, false)
      else
        match host.kind (path ++ [name]) with
        | .directory =>
          match lib.ensureNtfsChildDir w dir name with
          | (w, none) => (w, false)
          | (w, some sub) =>
            match below name fits w sub with
            | (w, done) =>
              match lib.inodeCloseInDir w sub dir with
              | (w, closed) => if done && closed then copyEntries path below dir rest w else (w, false)
        | .regular =>
          match lib.writeRegularFileIntoDir host w dir path name with
          | (w, false) => (w, false)
          | (w, true) => copyEntries path below dir rest w
        | .symlink =>
          match lib.writeSymlinkIntoDir host w dir path name with
          | (w, false) => (w, false)
          | (w, true) => copyEntries path below dir rest w
        | .other => copyEntries path below dir rest w
    else (w, false)

def populateDirRec (w : W) (dir : Ref) (path : HostPath) : W × Bool :=
  match host.listSortedDirEntries .copy path with
  | none => (w, false)
  | some names =>
    lib.copyEntries host path (fun name _fits w sub => populateDirRec w sub (path ++ [name])) dir names w
termination_by Host.pathMax - host.pathLength path
decreasing_by
  have longer := host.pathLength_child path name
  omega

end Ntfs3g

/-! ### The volume -/

inductive TargetKind where
  | regular
  | block
  | character
  | other
deriving DecidableEq

/-- Why a mount fails: with `EBUSY` or `EACCES`, or otherwise. -/
inductive MountError where
  | held
  | other

/-- What is found of the target before it is mounted, and what mounting it returns, the second
time after it was unmounted by force. -/
structure NtfsTarget (W : Type) where
  path : List UInt8
  isBootDisk : Bool
  nodeIsBootDisk : Bool
  kind : Option TargetKind
  mount : Except MountError W
  remount : Option W
  haveNtfsfix : Bool

namespace NtfsTarget

variable {W : Type} (target : NtfsTarget W)

/-- The volume that is mounted in the end. -/
def mounted (device : Bool) : Option W :=
  match target.mount with
  | .ok w => some w
  | .error .held => if device then target.remount else none
  | .error .other => none

end NtfsTarget

namespace Ntfs3g

variable {W Ref : Type} (lib : Ntfs3g W Ref)

def openNtfsRw (target : NtfsTarget W) : Option W :=
  if target.path = [] ∨ target.isBootDisk ∨ target.nodeIsBootDisk then none
  else
    match target.kind with
    | none => none
    | some .other => none
    | some kind =>
      match target.mounted (kind = .block ∨ kind = .character) with
      | none => none
      | some w =>
        match lib.setIgnoreCase w with
        | (_, false) => none
        | (w, true) => some w

def closeNtfsRw (target : NtfsTarget W) (hadError : Bool) (w : W) : Option W :=
  match lib.umount w with
  | (_, false) => none
  | (w, true) =>
    if hadError || !target.haveNtfsfix then none
    else
      match lib.ntfsfix w with
      | (_, false) => none
      | (w, true) => some w

/-- The volume as it is left, where the call returns success. -/
def rufuxNtfsPopulateDir (host : Host) (target : NtfsTarget W) : Option W :=
  if target.path = [] ∨ target.isBootDisk ∨ host.source = [] ∨ !host.isDir then none
  else if !host.prescanDirBytes [] then none
  else
    match lib.openNtfsRw target with
    | none => none
    | some w =>
      match lib.inodeOpen w lib.root with
      | (w, false) => lib.closeNtfsRw target true w
      | (w, true) =>
        match lib.populateDirRec host w lib.root [] with
        | (w, done) =>
          match lib.inodeClose w lib.root with
          | (w, closed) => lib.closeNtfsRw target (!(done && closed)) w

end Ntfs3g

end Rufux.Macos.Populate
