import Rufux.Create.Effects.Options

/-!
`rufux_create` on Linux as calls of the system: what it asks, what it changes and in which order.
The messages and the progress are left to other modules.
-/

namespace Rufux.Create.Effects.Linux

open Library Block

/-- The target and the partitions that are made on it. -/
inductive Node where
  | disk
  | first
  | second
  deriving DecidableEq

/-- Each call is answered by yes or no. -/
inductive Op where
  | isBlock
  | isDir
  | needRoot
  | ownMount (index : Nat)
  | unmountOwn (index : Nat)
  | smartFailed
  | checkTarget (node : Node) (allowFixed allowFile : Bool)
  | have (tool : String)
  | holds64Mib (node : Node)
  | scriptFile
  | sfdisk (node : Node) (layout scheme : String)
  | rescan (node : Node)
  | unknownType (node : Node)
  | bootCodeFile
  | writeBootCode (node : Node)
  | fat16Fits (node : Node)
  | sizeSettled (node : Node)
  | underDev (node : Node)
  | mkfs (node : Node) (fs : String)
  | ntfsFits (node : Node)
  | mbrFile (kind : String)
  | readMbrFile (kind : String)
  | writeMbr (node : Node)
  | sourceReadable
  | sameFile
  | openSource
  | readSource
  | openTarget
  | targetHolds
  | writeImage
  | compareImage
  | detectFailed
  | isVdisk
  | vhdAdjust
  | expandedFits
  | resolveSource
  | isRegular
  | truncate
  | convert
  | compareExpanded
  | openScan
  | readScan
  | pattern (pass : Nat)
  | zeroHead (node : Node)
  | wipeEdges (node : Node)
  | sourceOver4Gib
  | waitNode (node : Node)
  | runSyslinux (node : Node)
  | mount (node : Node)
  | unmount (node : Node)
  | canExtract
  | extract (mounted : Bool)
  | autorun (mounted : Bool)
  | persist (mounted : Bool)
  | splitExtract
  | customize
  | freedosDir
  | copyDos
  | dosPbr (node : Node)
  | dosMbr (node : Node)
  | windowsCheck
  | secondName
  | writeUefiNtfs (node : Node)
  | verifyTree
  | biosInstall
  | ntfsfix (node : Node)

abbrev Answer (_ : Op) : Type := Bool

abbrev Proc := Block Op Answer Unit

def call (op : Op) : Proc Bool := ask op

/-- `write_mbr_bootcode`: nothing to write is no failure. -/
def writeMbrBootcode (node : Node) : Proc Unit := do
  let found ← call .bootCodeFile
  onlyIf found do
    must (← call (.writeBootCode node))

/-- The layouts that put a partition after the data partition need the size of the disk. -/
def needsSize (o : PartOpts) : Bool :=
  o.layout = "main+uefintfs" || (o.layout = "single" && o.biosBoot && o.scheme = "gpt")

def rufuxPartition (node : Node) (o : PartOpts) : Proc Unit := do
  must (o.scheme = "gpt" || o.scheme = "dos" || o.scheme = "mbr")
  must (o.layout = "single" || o.layout = "esp+main" || o.layout = "main+uefintfs")
  must (o.dryRun || o.yes)
  must (← call (.checkTarget node o.allowFixed o.allowFile))
  must (← call (.have "sfdisk"))
  onlyIf (needsSize o) do
    must (← call (.holds64Mib node))
  onlyIf (!o.dryRun) do
    must (← call .scriptFile)
    let made ← call (.sfdisk node o.layout o.scheme)
    let _ ← call (.rescan node)
    must made
    onlyIf (o.scheme ≠ "gpt") (writeMbrBootcode node)
    onlyIf (o.scheme = "gpt") do
      let unknown ← call (.unknownType node)
      must (!unknown)

/-- What must be there for the file system to be made. NTFS is given the size of its partition,
when that is known. -/
def formatter (node : Node) (o : MkfsOpts) : Proc Bool := do
  if fsIsFat o.fs then
    must (← call (.have "mkfs.vfat"))
    onlyIf (fsIsFat16 o.fs) do
      must (← call (.fat16Fits node))
    pure false
  else if o.fs = "ntfs" then
    must (← call (.have "mkfs.ntfs"))
    if o.dryRun then pure false
    else do
      let settled ← call (.sizeSettled node)
      let named ← call (.underDev node)
      must (settled || !named)
      pure settled
  else if o.fs = "exfat" then
    must (← call (.have "mkfs.exfat"))
    pure false
  else if fsIsExt o.fs then
    must (← call (.have "mkfs.ext4"))
    pure false
  else if o.fs = "udf" then
    must (← call (.have "mkfs.udf"))
    pure false
  else leave

def rufuxFormat (node : Node) (o : MkfsOpts) : Proc Unit := do
  must (o.fs ≠ "")
  must (o.dryRun || o.yes)
  must (labelFits o.fs o.label)
  must (← call (.checkTarget node o.allowFixed o.allowFile))
  let sized ← formatter node o
  onlyIf (!o.dryRun) do
    must (← call (.mkfs node o.fs))
    onlyIf (o.fs = "ntfs" && sized) do
      must (← call (.ntfsFits node))

def rufuxInstallMbr (node : Node) (o : BootOpts) : Proc Unit := do
  must (o.dryRun || o.yes)
  must (← call (.checkTarget node o.allowFixed o.allowFile))
  must (← call (.mbrFile o.kind))
  onlyIf (!o.dryRun) do
    must (← call (.readMbrFile o.kind))
    must (← call (.writeMbr node))

def rufuxWriteImage (o : WriteOpts) : Proc Unit := do
  must (← call .sourceReadable)
  must (← call (.checkTarget .disk o.allowFixed o.allowFile))
  let same ← call .sameFile
  must (!same)
  must (← call .openSource)
  if o.dryRun then do
    must (← call .readSource)
  else do
    must o.yes
    must (← call .openTarget)
    must (← call .targetHolds)
    must (← call .writeImage)
    onlyIf o.verify do
      must (← call .compareImage)

def rufuxVdiskWrite (o : WriteOpts) : Proc Unit := do
  must (← call (.checkTarget .disk o.allowFixed o.allowFile))
  must (← call .expandedFits)
  must (← call .resolveSource)
  let same ← call .sameFile
  must (!same)
  onlyIf (!o.dryRun) do
    must o.yes
    let regular ← call .isRegular
    onlyIf regular do
      must (← call .truncate)
    must (← call .convert)
    onlyIf o.verify do
      must (← call .compareExpanded)

/-- One pass of `rufux_badblocks_write`, whose guard lets fixed disks through. -/
def rufuxBadblocksWrite (allowFile : Bool) (pass : Nat) : Proc Unit := do
  must (← call (.checkTarget .disk true allowFile))
  must (← call .openScan)
  must (← call (.pattern pass))

def badblocksFrom (allowFile : Bool) : Nat → Nat → Proc Unit
  | _, 0 => pure ()
  | pass, left + 1 => do
      rufuxBadblocksWrite allowFile pass
      badblocksFrom allowFile (pass + 1) left

def runBadblocks (passes : Nat) (allowFile : Bool) : Proc Unit := badblocksFrom allowFile 0 passes

/-- The mounted nodes of the target in `/proc/mounts`, as many as the table of them holds. -/
def countMounts : Nat → Nat → Proc Nat
  | index, 0 => pure index
  | index, room + 1 => do
      let more ← call (.ownMount index)
      if more then countMounts (index + 1) room else pure index

def unmountEach : Nat → Nat → Proc Unit
  | _, 0 => pure ()
  | index, left + 1 => do
      must (← call (.unmountOwn index))
      unmountEach (index + 1) left

def unmountDisk : Proc Unit := do
  let count ← countMounts 0 32
  unmountEach 0 count

/-- FAT cannot hold an image of 4 GiB. -/
def vfatSizeGuard (fs : String) : Proc Unit :=
  onlyIf (fsIsFat fs) do
    let large ← call .sourceOver4Gib
    must (!large)

def syslinuxBestEffort (node : Node) : Proc Unit := do
  let installed ← call (.have "syslinux")
  onlyIf installed do
    must (← call (.runSyslinux node))

def flowDd (o : CreateOpts) : Proc Unit := do
  let failed ← call .detectFailed
  must (!failed)
  let vdisk ← call .isVdisk
  if vdisk then rufuxVdiskWrite o.writeOpts
  else do
    must (← call .vhdAdjust)
    rufuxWriteImage o.writeOpts

def flowExtractDir (o : CreateOpts) : Proc Unit := do
  vfatSizeGuard o.fs
  if o.dryRun then do
    must (← call .canExtract)
  else do
    must (← call (.extract false))
    onlyIf o.extendedLabel do
      must (← call (.autorun false))
    onlyIf (o.persistMb ≠ 0) do
      must (← call (.persist false))

def singlePartition (o : CreateOpts) : PartOpts where
  scheme := o.scheme
  layout := "single"
  biosBoot := false
  dryRun := false
  allowFixed := o.allowFixed
  allowFile := false
  yes := true

def fileSystem (o : CreateOpts) (fs : String) : MkfsOpts where
  fs := fs
  label := o.label
  dryRun := false
  allowFixed := o.allowFixed
  allowFile := false
  yes := true

def bootRecord (o : CreateOpts) : BootOpts where
  kind := if o.scheme = "gpt" then "gpt" else "bios"
  dryRun := false
  allowFixed := o.allowFixed
  allowFile := false
  yes := true

/-- The table, its node, and the head of the partition in a full format. -/
def partitionSingle (o : CreateOpts) : Proc Unit := do
  rufuxPartition .disk (singlePartition o)
  let _ ← call (.rescan .disk)
  must (← call (.waitNode .first))
  onlyIf (!o.quickFormat) do
    must (← call (.zeroHead .first))

def chainload (o : CreateOpts) : Proc Unit :=
  onlyIf (o.scheme = "dos" && (fsIsFat o.fs || startsExt o.fs)) (syslinuxBestEffort .first)

/-- The target made ready: table, file system and boot code of the partition. -/
def makeVolume (o : CreateOpts) : Proc Unit := do
  partitionSingle o
  rufuxFormat .first (fileSystem o o.fs)
  chainload o

/-- What goes on the mounted volume; its failure does not skip the unmounting. -/
def fillExtracted (o : CreateOpts) : Proc Unit := do
  must (← call (.extract true))
  onlyIf o.extendedLabel do
    must (← call (.autorun true))
  onlyIf (o.persistMb ≠ 0) do
    must (← call (.persist true))

def mountFirst : Proc Unit := do
  must (← call (.mount .first))

/-- A mounted volume filled and unmounted. It fails when either does. -/
def fillMounted (fill : Proc Unit) : Proc Unit := do
  let filled ← attempt fill
  let unmounted ← call (.unmount .first)
  must (filled && unmounted)

/-- A plan without a log to print it to is carried out. -/
def flowExtractDisk (o : CreateOpts) (log : Bool) : Proc Unit := do
  vfatSizeGuard o.fs
  onlyIf (!(o.dryRun && log)) do
    makeVolume o
    mountFirst
    fillMounted (fillExtracted o)
    rufuxInstallMbr .disk (bootRecord o)

def flowFormat (o : CreateOpts) : Proc Unit := do
  let block ← call .isBlock
  if block then
    onlyIf (!o.dryRun) do
      makeVolume o
      rufuxInstallMbr .disk (bootRecord o)
  else
    onlyIf (!o.dryRun) (rufuxFormat .disk { fileSystem o o.fs with allowFile := true })

def makeDosVolume (o : CreateOpts) : Proc Unit := do
  must (← call .isBlock)
  must (← call .freedosDir)
  rufuxPartition .disk { singlePartition o with scheme := "dos" }
  let _ ← call (.rescan .disk)
  must (← call (.waitNode .first))
  rufuxFormat .first (fileSystem o "vfat")

/-- The boot records go on after the unmounting. -/
def dosRecords : Proc Unit := do
  must (← call (.dosPbr .first))
  must (← call (.dosMbr .disk))

def flowDos (o : CreateOpts) : Proc Unit :=
  onlyIf (!o.dryRun) do
    makeDosVolume o
    mountFirst
    fillMounted do
      must (← call .copyDos)
    dosRecords

def isGpt (o : CreateOpts) : Bool := o.scheme ≠ "dos"

def isFat32 (o : CreateOpts) : Bool := o.fs = "vfat" || o.fs = "fat32"

def windowsPartition (o : CreateOpts) : PartOpts where
  scheme := if isGpt o then "gpt" else "dos"
  layout := if isFat32 o then "single" else "main+uefintfs"
  biosBoot := isGpt o
  dryRun := false
  allowFixed := o.allowFixed
  allowFile := false
  yes := true

/-- Fresh signatures settle late, so a mount that fails is tried once more. -/
def mountTwice : Proc Unit := do
  let mounted ← call (.mount .first)
  onlyIf (!mounted) do
    let _ ← call (.rescan .disk)
    mountFirst

/-- FAT32 needs the install image split, NTFS only when that is asked for. -/
def copyWindows (o : CreateOpts) : Proc Unit :=
  if isFat32 o || o.splitWimMb ≠ 0 then do
    must (← call .splitExtract)
  else do
    must (← call (.extract true))

def fillWindows (o : CreateOpts) : Proc Unit := do
  copyWindows o
  onlyIf o.customizes do
    must (← call .customize)
  must (← call .verifyTree)
  -- legacy boot code is best effort
  let _ ← call .biosInstall

def clearNtfs : Proc Unit := do
  let installed ← call (.have "ntfsfix")
  onlyIf installed do
    let _ ← call (.ntfsfix .first)

def makeWindowsVolume (o : CreateOpts) : Proc Unit := do
  must (← call .windowsCheck)
  onlyIf (!isFat32 o) do
    must (← call .secondName)
  rufuxPartition .disk (windowsPartition o)
  let _ ← call (.rescan .disk)
  must (← call (.waitNode .first))
  onlyIf (!isFat32 o) do
    must (← call (.waitNode .second))
    must (← call (.writeUefiNtfs .second))
  onlyIf (!o.quickFormat) do
    must (← call (.zeroHead .first))
  must (← call (.wipeEdges .first))
  rufuxFormat .first (fileSystem o (if isFat32 o then "vfat" else "ntfs"))
  let _ ← call (.rescan .disk)

def flowWindows (o : CreateOpts) (log : Bool) : Proc Unit := do
  must (isFat32 o || o.fs = "ntfs")
  onlyIf (!(o.dryRun && log)) do
    makeWindowsVolume o
    mountTwice
    fillMounted (fillWindows o)
    onlyIf (!isFat32 o) clearNtfs

/-- The checks, the scans and the clearing that come before the flow. -/
def prepare (o : CreateOpts) : Proc Unit := do
  must (o.dryRun || o.yes)
  onlyIf (!o.dryRun) do
    let block ← call .isBlock
    onlyIf block do
      must (← call .needRoot)
      unmountDisk
  let block ← call .isBlock
  onlyIf (block && !o.dryRun) do
    let failing ← call .smartFailed
    must (!failing || o.ignoreSmart)
  onlyIf (!o.dryRun) (runBadblocks o.badblockPasses o.allowFile)
  onlyIf (!o.dryRun && !o.quickFormat) do
    let block ← call .isBlock
    onlyIf (block && o.mode = "dd") do
      must (← call (.zeroHead .disk))

def flow (o : CreateOpts) (source log : Bool) : Proc Unit :=
  if o.mode = "dd" then flowDd o
  else if o.mode = "extract" then do
    let directory ← call .isDir
    if directory then flowExtractDir o else flowExtractDisk o log
  else if o.mode = "format" then flowFormat o
  else if o.mode = "dos" then flowDos o
  else if o.mode = "windows" then do
    must source
    flowWindows o log
  else leave

/-- With a source image or none, and with a log or none. -/
def rufuxCreate (o : CreateOpts) (source log : Bool) : Proc Unit := do
  prepare o.normalised
  flow o.normalised source log

end Rufux.Create.Effects.Linux
