import Rufux.Library.KeyValue

/-!
Names of disks and their nodes, and the two scans of `/proc/mounts` for them: the one that
unmounts a disk before it is written, and the one that refuses a mounted target.
-/

namespace Rufux.Linux

/-- A C string, as the characters before its terminator. -/
abbrev CString := List Char

def isBlank (char : Char) : Bool :=
  char = ' ' || char = '\t' || char = '\n' || char = '\x0b' || char = '\x0c' || char = '\r'

/-- The name of a block device in the kernel, at most 31 characters long. -/
structure KernelName where
  chars : CString
  nonempty : chars ≠ []
  short : chars.length < 32
  plain : ∀ char ∈ chars, char ≠ '/' ∧ isBlank char = false

/-- A line of `/proc/mounts`. The kernel escapes blanks in the first field. -/
structure MountLine where
  source : CString
  rest : CString
  nonempty : source ≠ []
  plain : ∀ char ∈ source, isBlank char = false
  single : '\n' ∉ rest

abbrev MountTable := List MountLine

def MountLine.text (line : MountLine) : CString := line.source ++ ' ' :: line.rest ++ ['\n']

def dev : CString := "/dev/".toList

/-- What `fgets` with a buffer of 1024 bytes returns of a line, piece by piece. -/
def cutLine : Nat → CString → List CString
  | 0, _ => []
  | _ + 1, [] => []
  | pieces + 1, char :: text =>
      (char :: text).take 1023 :: cutLine pieces ((char :: text).drop 1023)

def fgetsPieces (text : CString) : List CString := cutLine text.length text

def tablePieces (table : MountTable) : List CString :=
  table.flatMap fun line => fgetsPieces line.text

theorem cutLine_flatten (pieces : Nat) {text : CString} (enough : text.length ≤ pieces) :
    (cutLine pieces text).flatten = text := by
  induction pieces generalizing text with
  | zero =>
      rw [List.length_eq_zero_iff.mp (Nat.le_zero.mp enough)]
      rfl
  | succ pieces ih =>
      cases text with
      | nil => rfl
      | cons char text =>
          rw [cutLine, List.flatten_cons, ih, List.take_append_drop]
          simp only [List.length_drop, List.length_cons] at enough ⊢
          omega

theorem fgetsPieces_head {text : CString} (nonempty : text ≠ []) :
    text.take 1023 ∈ fgetsPieces text := by
  cases text with
  | nil => exact absurd rfl nonempty
  | cons char text => exact List.mem_cons_self

/-- The `%511s` of a piece. -/
def firstToken (piece : CString) : CString :=
  ((piece.dropWhile isBlank).takeWhile fun char => !isBlank char).take 511

/-- The test on a device name: the disk's name, then nothing, a `p` or a digit. -/
def namesDisk (base device : CString) : Bool :=
  dev.isPrefixOf device && base.isPrefixOf (device.drop 5) &&
    match (device.drop (5 + base.length)).head? with
    | none => true
    | some char => char = 'p' || char.isDigit

def maxParts : Nat := 32

def noteDevice (base : CString) (parts : List CString) (device : CString) : List CString :=
  if device = [] then parts
  else if namesDisk base device = false then parts
  else if device ∈ parts then parts
  -- a slot of the table has 128 bytes
  else parts ++ [device.take 127]

def noteParts (base : CString) : List CString → List CString → List CString
  | parts, [] => parts
  | parts, piece :: rest =>
      if maxParts ≤ parts.length then parts
      else noteParts base (noteDevice base parts (firstToken piece)) rest

/-- The calls of `rufux_unmount`, up to one that fails on a real run. -/
def unmountParts (unmounts : CString → Bool) (dryRun : Bool) : List CString → List CString × Int
  | [] => ([], 0)
  | part :: rest =>
      if unmounts part || dryRun then
        let (done, rc) := unmountParts unmounts dryRun rest
        (part :: done, rc)
      else ([part], -1)

def baseName (path : CString) : CString := (path.reverse.takeWhile (· ≠ '/')).reverse

def unmountDisk (mounts : Option MountTable) (unmounts : CString → Bool) (dst : CString)
    (dryRun : Bool) : List CString × Int :=
  match mounts with
  | none => ([], 0)
  | some table =>
      unmountParts unmounts dryRun (noteParts (baseName dst) [] (tablePieces table))

def devIsMounted (mounts : Option MountTable) (sysname : CString) : Bool :=
  match mounts with
  | none => false
  | some table => (tablePieces table).any fun piece => (dev ++ sysname).isPrefixOf piece

/-- The kernel puts a `p` between a disk's name and a partition number when the name ends in
a digit. -/
def endsInDigit (disk : CString) : Bool := (disk.getLast?.map Char.isDigit).getD false

def rufuxPart1 (disk : CString) : CString :=
  disk ++ (if endsInDigit disk then ['p'] else []) ++ ['1']

/-- What follows a disk's name in the names of its own nodes: nothing, or a partition number. -/
def NodeSuffix (disk suffix : CString) : Prop :=
  suffix = [] ∨ ∃ number : CString, number ≠ [] ∧ (∀ char ∈ number, char.isDigit = true) ∧
    suffix = (if endsInDigit disk then ['p'] else []) ++ number

def Belongs (disk device : CString) : Prop :=
  ∃ suffix, NodeSuffix disk suffix ∧ device = dev ++ disk ++ suffix

def MountedNode (disk : CString) (table : MountTable) (device : CString) : Prop :=
  (∃ line ∈ table, line.source = device) ∧ Belongs disk device

theorem rufuxPart1_belongs (disk : CString) : Belongs disk (dev ++ rufuxPart1 disk) := by
  refine ⟨(if endsInDigit disk then ['p'] else []) ++ ['1'], Or.inr ⟨['1'], ?_, ?_, rfl⟩, ?_⟩
  · exact List.cons_ne_nil _ _
  · intro char member
    rw [List.mem_singleton.mp member]
    rfl
  · simp only [rufuxPart1, List.append_assoc]

section Scan

/-- The device names that the scan gets to before its table is full. -/
def scannedDevices (base : CString) : List CString → List CString → List CString
  | _, [] => []
  | parts, piece :: rest =>
      if maxParts ≤ parts.length then []
      else firstToken piece :: scannedDevices base (noteDevice base parts (firstToken piece)) rest

theorem namesDisk_nonempty {base : CString} : namesDisk base [] = false := rfl

/-- A mounted node of a disk shows in a piece of the table that starts with the disk's name. -/
theorem MountedNode.starts {disk : KernelName} {table : MountTable} {device : CString}
    (mounted : MountedNode disk.chars table device) :
    ∃ piece ∈ tablePieces table, (dev ++ disk.chars).isPrefixOf piece = true := by
  obtain ⟨⟨line, listed, rfl⟩, suffix, _, named⟩ := mounted
  have nonempty : line.text ≠ [] := by simp [MountLine.text]
  refine ⟨line.text.take 1023, List.mem_flatMap.mpr ⟨line, listed, fgetsPieces_head nonempty⟩, ?_⟩
  have text : line.text = dev ++ disk.chars ++ (suffix ++ (' ' :: line.rest ++ ['\n'])) := by
    rw [MountLine.text, named]
    simp only [List.append_assoc]
  have short : (dev ++ disk.chars).length ≤ 1023 := by
    have := disk.short
    rw [List.length_append, show dev.length = 5 from rfl]
    omega
  rw [List.isPrefixOf_iff_prefix, text, List.take_append, List.take_of_length_le short]
  exact List.prefix_append _ _

end Scan

section Exactness

/-- The matching of a disk's nodes in a table is exact: what is unmounted is what is mounted
of the disk, and the guard sees the disk as mounted just when something of it is. -/
def Exact (disk : KernelName) (table : MountTable) : Prop :=
  (∀ device, device ∈ (unmountDisk (some table) (fun _ => true) (dev ++ disk.chars) false).1 ↔
    MountedNode disk.chars table device) ∧
  (devIsMounted (some table) disk.chars = true ↔
    ∃ device, MountedNode disk.chars table device)

/-- What keeps the matching exact. -/
structure Clean (disk : KernelName) (table : MountTable) : Prop where
  /-- Every name the scan gets to and takes for one of the disk's, as far as a slot holds it,
  is one, and mounted. -/
  own : ∀ device ∈ scannedDevices disk.chars [] (tablePieces table),
    namesDisk disk.chars device = true → MountedNode disk.chars table (device.take 127)
  /-- Every mounted node of the disk is a name the scan gets to and takes. -/
  all : ∀ node, MountedNode disk.chars table node →
    ∃ device ∈ scannedDevices disk.chars [] (tablePieces table),
      namesDisk disk.chars device = true ∧ device.take 127 = node
  /-- A piece of the table that starts with the disk's name comes with a mounted node of it. -/
  guard : ∀ piece ∈ tablePieces table, (dev ++ disk.chars).isPrefixOf piece = true →
    ∃ node, MountedNode disk.chars table node

end Exactness

end Rufux.Linux
