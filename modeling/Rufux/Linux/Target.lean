import Rufux.Linux.Mounts

/-!
The target guard: the disk that a path's name is matched to in `/sys/block`, the disk that
opening the path reaches, and when the first check protects the second disk.
-/

namespace Rufux.Linux

abbrev DevNumber := Nat

inductive Entry where
  | symlink (target : CString)
  | regular
  | block (number : DevNumber)
  | other

/-- A disk as `/sys/block` shows it, with the device numbers and kernel names of its nodes. -/
structure KernelDisk where
  name : KernelName
  removable : Option CString
  sectors : Nat
  nodes : List (DevNumber × CString)
  own : ∀ node ∈ nodes, ∃ suffix, NodeSuffix name.chars suffix ∧ node.2 = name.chars ++ suffix

structure System where
  lookup : CString → Option Entry
  disks : List KernelDisk
  mounts : MountTable
  mountsReadable : Bool
  /-- What `BLKGETSIZE64` says of an open device, zero when it cannot be opened. -/
  capacity : DevNumber → Nat

/-- Following symbolic links, forty of them at most. -/
def followLinks (lookup : CString → Option Entry) : Nat → CString → Option (CString × Entry)
  | links, path =>
      match lookup path with
      | none => none
      | some (.symlink target) =>
          match links with
          | 0 => none
          | links + 1 => followLinks lookup links target
      | some entry => some (path, entry)

def System.resolve (system : System) (path : CString) : Option (CString × Entry) :=
  followLinks system.lookup 40 path

def System.stat (system : System) (path : CString) : Option Entry :=
  (system.resolve path).map Prod.snd

/-- One entry of `/sys/block`: the longest name so far that the path's last part starts with. -/
def matchDisk (base : CString) (best : Option KernelDisk) (disk : KernelDisk) :
    Option KernelDisk :=
  if disk.name.chars.head? = some '.' then best
  else if disk.name.chars.isPrefixOf base &&
      decide ((best.map fun found => found.name.chars.length).getD 0 < disk.name.chars.length) then
    some disk
  else best

def namedDisk (system : System) (path : CString) : Option KernelDisk :=
  system.disks.foldl (matchDisk (baseName path)) none

def KernelDisk.isRemovable (disk : KernelDisk) : Bool :=
  (disk.removable.bind List.head?) = some '1'

def System.procMounts (system : System) : Option MountTable :=
  if system.mountsReadable then some system.mounts else none

def devSizeBytes (system : System) (disk : KernelDisk) (path : CString) : Nat :=
  match system.stat path with
  | some (.block number) =>
      if 0 < system.capacity number then system.capacity number else disk.sectors * 512
  | _ => disk.sectors * 512

def rufuxCheckTarget (system : System) (path : CString) (allowFixed allowFile : Bool) :
    Except String Unit :=
  let name := String.ofList path
  match system.stat path with
  | none => .error s!"target '{name}' does not exist"
  | some .regular =>
      if allowFile then .ok ()
      else .error s!"target '{name}' is a regular file (need --allow-file for tests)"
  | some (.block _) =>
      match namedDisk system path with
      | none => .error s!"cannot map '{name}' to a disk"
      | some disk =>
          let sysname := String.ofList disk.name.chars
          if disk.removable = none then .error s!"cannot read removable flag for '{sysname}'"
          else if !disk.isRemovable && !allowFixed then
            .error s!"refusing fixed disk '{name}' without --allow-fixed"
          else if devIsMounted system.procMounts disk.name.chars then
            .error s!"refusing mounted disk '{sysname}' (unmount first)"
          else if devSizeBytes system disk path = 0 then
            .error s!"'{name}' reports a capacity of 0 bytes: an empty card-reader slot, or a drive the kernel cannot read. Replug it or choose another entry."
          else .ok ()
  | some _ => .error s!"target '{name}' is not a block device or file"

section Guard

/-- The disk that opening a path reaches, by device number. -/
def Opens (system : System) (path : CString) (disk : KernelDisk) : Prop :=
  disk ∈ system.disks ∧
    ∃ number, system.stat path = some (.block number) ∧ ∃ node ∈ disk.nodes, node.1 = number

def Matches (base : CString) (disk : KernelDisk) : Prop :=
  disk.name.chars.head? ≠ some '.' ∧ disk.name.chars.isPrefixOf base = true

end Guard

end Rufux.Linux
